import DbSchema.Proofs.Document.Written

/-!
# Normal forms of documents

A document may give a table on its own, names in one text, truth values in any shape and kinds in
any spelling.  Reading it and writing the schema gives its normal form, which is read again and
written as itself: what is written depends on the outline of the schema only, and settling an
outline does not change what is written for it.

Which places of a document hold one and the same collection is of no matter for what it says, so
documents are compared without these marks.

## Main definitions

* `Value.bare v` — the value without marks.
* `FieldSpec.document`, `IndexSpec.document`, `ConstraintSpec.document`, `TableOutline.document`,
  `SchemaOutline.document` — what is written for a description or an outline.

## Main results

* `bare_encodeField`, `bare_encodeTable`, `bare_encodeSchema` and their like — what is written is
  the document of the outline.
* `FieldSpec.document_settle`, `document_settledSchema` and their like — settling does not change
  the document.
* `normalisation_idempotent` — the normal form of a document is its own normal form.
-/

namespace DbSchema

/-! ### Values without marks -/

namespace Value

mutual

/-- The value without the marks that tell which places hold one and the same collection or date. -/
def bare : Value → Value
  | .date d _ => .date d .own
  | .datetime t _ => .datetime t .own
  | .list items _ => .list (bareAll items) .own
  | .tuple items _ => .tuple (bareAll items) .own
  | .set items _ => .set (bareAll items) .own
  | .map entries _ => .map (bareEntries entries) .own
  | v => v

/-- The values of a list without marks. -/
def bareAll : List Value → List Value
  | [] => []
  | v :: r => bare v :: bareAll r

/-- The entries of a mapping without marks. -/
def bareEntries : List (Value × Value) → List (Value × Value)
  | [] => []
  | (k, v) :: r => (bare k, bare v) :: bareEntries r

end

theorem bareAll_eq_map (vs : List Value) : bareAll vs = vs.map bare := by
  induction vs with
  | nil => rfl
  | cons v r ih => rw [bareAll, ih, List.map_cons]

theorem bareEntries_pairs (pairs : List (String × Value)) :
    bareEntries (pairs.map fun p => (.text p.1, p.2)) =
      (pairs.map fun p => (p.1, p.2.bare)).map fun p => (.text p.1, p.2) := by
  induction pairs with
  | nil => rfl
  | cons p r ih => rw [List.map_cons, bareEntries, ih]; rfl

theorem bare_ofPairs (pairs : List (String × Value)) :
    (ofPairs pairs).bare = .ofPairs (pairs.map fun p => (p.1, p.2.bare)) := by
  rw [ofPairs, bare, bareEntries_pairs, ofPairs]

theorem bare_ofList (vs : List Value) : (ofList vs).bare = .ofList (vs.map bare) := by
  rw [ofList, bare, bareAll_eq_map, ofList]

theorem bare_ofTexts (texts : List String) : (ofTexts texts).bare = .ofTexts texts := by
  rw [ofTexts, bare_ofList, List.map_map]
  rfl

@[simp] theorem bare_text (s : String) : (text s).bare = .text s := rfl

@[simp] theorem bare_bool (b : Bool) : (bool b).bare = .bool b := rfl

variable (v : Value) (m : Mark)

@[simp] theorem bare_markedAs : (v.markedAs m).bare = v.bare := by
  unfold markedAs
  split <;> simp only [bare]

@[simp] theorem truthy_markedAs : (v.markedAs m).truthy = v.truthy := by
  unfold markedAs
  split <;> rfl

/-- A marked value is null only if it was null before. -/
@[simp] theorem markedAs_same_null : (v.markedAs m).same .null = v.same .null := by
  unfold markedAs
  split <;> simp [same, sameNumber, asInt?]

end Value

@[simp] theorem bare_slotValue (owner : Ref) (name : String) (v : Value) :
    (slotValue owner name v).bare = v.bare := Value.bare_markedAs v _

@[simp] theorem truthy_slotValue (owner : Ref) (name : String) (v : Value) :
    (slotValue owner name v).truthy = v.truthy := Value.truthy_markedAs v _

@[simp] theorem slotValue_same_null (owner : Ref) (name : String) (v : Value) :
    (slotValue owner name v).same .null = v.same .null := Value.markedAs_same_null v _

@[simp] theorem truthy_settledText (owner : Ref) (name : String) (v : Value) :
    (settledText owner name v).truthy = v.truthy := by
  by_cases hv : v.truthy <;> simp [settledText, hv]
  rfl

/-- What is written without marks under a condition. -/
theorem map_bare_entryIf (c : Bool) (key : String) (v : Value) :
    (entryIf c key v).map (fun p => (p.1, p.2.bare)) = entryIf c key v.bare := by
  cases c <;> rfl

/-- A value that is written only when it counts as true is the same when it is settled. -/
theorem entryIf_settledText (key : String) (owner : Ref) (name : String) (v : Value) :
    entryIf v.truthy key (settledText owner name v).bare = entryIf v.truthy key v.bare := by
  by_cases hv : v.truthy <;> simp [settledText, entryIf, hv]

/-! ### Fields -/

/-- What is written for a field. -/
def FieldSpec.document (x : FieldSpec) : Value :=
  .ofPairs <|
    [("name", x.name.bare), ("data_type", x.dataType.bare)] ++
    entryIf x.size.truthy "size" x.size.bare ++
    entryIf (!x.nullable.truthy) "nullable" (.bool false) ++
    entryIf (!x.default.same .null) "default" x.default.bare ++
    entryIf x.autoIncrement.truthy "auto_increment" (.bool true) ++
    entryIf (!x.comments.same .null) "comments" x.comments.bare ++
    entryIf x.extra.truthy "extra" x.extra.bare

variable {st : Store} {s : SchemaId} {t : TableId}

theorem bare_encodeField (f : FieldId) :
    (encodeField st f).bare = (st.field f).toFieldSpec.document := by
  rw [encodeField, Value.bare_ofPairs, FieldSpec.document]
  simp only [List.map_append, List.map_cons, List.map_nil, map_bare_entryIf, bare_slotValue,
    Value.bare_bool]

/-- Settling a field does not change what is written for it. -/
theorem FieldSpec.document_settle (x : FieldSpec) (owner : Ref) :
    (x.settle owner).document = x.document := by
  -- whatever was left out for counting as false is an empty mapping now, and left out again
  have hextra : entryIf (x.settle owner).extra.truthy "extra" (x.settle owner).extra.bare =
      entryIf x.extra.truthy "extra" x.extra.bare := by
    by_cases h : x.extra.truthy
    · simp [settle, h]
    · simp only [settle, h, Bool.false_eq_true, if_false]
      rfl
  rw [document, hextra, document]
  simp only [settle, slotValue_same_null, bare_slotValue]
  rfl

/-! ### Indices -/

/-- What is written for an index. -/
def IndexSpec.document (x : IndexSpec) : Value :=
  let kind :=
    match x.kind with
    | .indexKind k => entryIf (k != .normal) "type" (.text k.label)
    | _ => []
  .ofPairs <|
    entryIf x.name.truthy "name" x.name.bare ++ kind ++
    [("fields", x.fields.bare)] ++
    entryIf x.options.truthy "options" x.options.bare

theorem bare_encodeIndex {i : IndexId} (h : (st.index i).toIndexSpec.Tidy) :
    ∃ v, encodeIndex st i = .ok v ∧ v.bare = (st.index i).toIndexSpec.document := by
  obtain ⟨kind, hkind⟩ := h.kind
  refine ⟨_, encodeIndex_eq hkind, ?_⟩
  rw [Value.bare_ofPairs, indexEntries, IndexSpec.document, hkind]
  simp only [List.map_append, List.map_cons, List.map_nil, map_bare_entryIf, bare_slotValue,
    Value.bare_text]

/-! ### Constraints -/

/-- What is written for a constraint. -/
def ConstraintSpec.document (x : ConstraintSpec) : Value :=
  let optional (name : String) (v : Value) : List (String × Value) := entryIf v.truthy name v.bare
  let kind :=
    match x.kind with
    | .constraintKind k => [("type", Value.text k.label)]
    | _ => []
  .ofPairs <|
    optional "name" x.name ++ kind ++
    optional "fields" x.fields ++
    optional "reference_table" x.referenceTable ++
    optional "expression" x.expression ++
    optional "on_delete" x.onDelete ++
    optional "on_update" x.onUpdate ++
    optional "match_type" x.matchType ++
    optional "reference_fields" x.referenceFields ++
    entryIf (!x.deferrable.truthy) "deferrable" (.bool false) ++
    optional "options" x.options

theorem bare_encodeConstraint {c : ConstraintId}
    (h : (st.constraint c).toConstraintSpec.NearlyTidy) :
    ∃ v, encodeConstraint st c = .ok v ∧
      v.bare = (st.constraint c).toConstraintSpec.document := by
  obtain ⟨kind, hkind⟩ := h.exists_kind
  refine ⟨_, encodeConstraint_eq hkind, ?_⟩
  rw [Value.bare_ofPairs, constraintEntries, ConstraintSpec.document, hkind]
  simp only [List.map_append, map_bare_entryIf, bare_slotValue, Value.bare_bool]
  rcases kind with _ | k <;> rfl

/-- Settling a constraint does not change what is written for it. -/
theorem ConstraintSpec.document_settle (x : ConstraintSpec) (owner : Ref) :
    (x.settle owner).document = x.document := by
  simp only [document, settle, truthy_settledText, entryIf_settledText]
  rfl

/-! ### Tables -/

/-- What is written for a table. -/
def TableOutline.document (o : TableOutline) : Value :=
  .ofPairs <|
    [("table", o.name.bare)] ++
    entryIf (!o.options.isEmpty) "options" (.ofTexts o.options) ++
    [("fields", .ofList (o.fields.map FieldSpec.document))] ++
    entryIf (!o.indices.isEmpty) "indices" (.ofList (o.indices.map IndexSpec.document)) ++
    entryIf (!o.constraints.isEmpty) "constraints"
      (.ofList (o.constraints.map ConstraintSpec.document))

/-- What is written one by one for objects are the documents of their descriptions. -/
theorem exists_encodeAll_bare {α σ : Type} {encode : α → Except ModelError Value} {f : α → σ}
    {document : σ → Value} {l : List α}
    (h : ∀ a ∈ l, ∃ v, encode a = .ok v ∧ v.bare = document (f a)) :
    ∃ vs, encodeAll encode l = .ok vs ∧ vs.map Value.bare = (l.map f).map document := by
  obtain ⟨vs, hwrite, hbare⟩ :=
    encodeAll_forall₂ (R := fun v spec => v.bare = document spec) h
  refine ⟨vs, hwrite, ?_⟩
  rw [← List.forall₂_eq_eq_eq]
  exact List.forall₂_map_left_iff.mpr (List.forall₂_map_right_iff.mpr hbare)

/-- What is written for a table is the document of its outline. -/
theorem bare_encodeTable (h : st.LegibleTable t) :
    ∃ v, encodeTable st t = .ok v ∧ v.bare = (st.outline t).document := by
  obtain ⟨name, hn⟩ := h.name
  obtain ⟨indices, hindices, hbareIndices⟩ := exists_encodeAll_bare
    (f := fun i => (st.index i).toIndexSpec) fun i hi => bare_encodeIndex (h.index i hi)
  obtain ⟨constraints, hconstraints, hbareConstraints⟩ := exists_encodeAll_bare
    (f := fun c => (st.constraint c).toConstraintSpec)
    fun c hc => bare_encodeConstraint (h.constraint c hc)
  refine ⟨_, encodeTable_eq h hn hindices hconstraints, ?_⟩
  have hfields : ((st.table t).fields.map fun d => encodeField st d.2).map Value.bare =
      (st.outline t).fields.map FieldSpec.document := by
    simp only [Store.outline, List.map_map]
    exact List.map_congr_left fun d _ => bare_encodeField d.2
  have hindices' : indices.map Value.bare = (st.outline t).indices.map IndexSpec.document :=
    hbareIndices
  have hconstraints' :
      constraints.map Value.bare = (st.outline t).constraints.map ConstraintSpec.document :=
    hbareConstraints
  -- a section is written or left out in the same way on both sides, for it has as many items
  have hsome : indices.isEmpty = (st.outline t).indices.isEmpty := by
    rw [← List.isEmpty_map (f := Value.bare), hindices', List.isEmpty_map]
  have hsome' : constraints.isEmpty = (st.outline t).constraints.isEmpty := by
    rw [← List.isEmpty_map (f := Value.bare), hconstraints', List.isEmpty_map]
  have hname : (st.outline t).name = .text name := hn
  rw [Value.bare_ofPairs, tableEntries, TableOutline.document, hname]
  simp only [List.map_append, map_bare_entryIf, Value.bare_ofList, Value.bare_ofTexts, hfields,
    hindices', hconstraints', hsome, hsome']
  rfl

/-- Settling a table does not change what is written for it. -/
theorem document_settledOutline (st : Store) (t : TableId) :
    (settledOutline st t).document = (st.outline t).document := by
  have hfields : (settledOutline st t).fields.map FieldSpec.document =
      (st.outline t).fields.map FieldSpec.document := by
    simp only [settledOutline, Store.outline, List.map_map]
    exact List.map_congr_left fun d _ => FieldSpec.document_settle _ _
  have hconstraints : (settledOutline st t).constraints.map ConstraintSpec.document =
      (st.outline t).constraints.map ConstraintSpec.document := by
    simp only [settledOutline, Store.outline, List.map_map]
    exact List.map_congr_left fun c _ => ConstraintSpec.document_settle _ _
  have hsome : (settledOutline st t).constraints.isEmpty =
      (st.outline t).constraints.isEmpty := by
    rw [← List.isEmpty_map (f := ConstraintSpec.document), hconstraints, List.isEmpty_map]
  rw [TableOutline.document, hfields, hconstraints, hsome]
  rfl

/-! ### Schemas -/

/-- What is written for a schema. -/
def SchemaOutline.document (o : SchemaOutline) : Value :=
  let head := entryIf o.name.truthy "name" o.name.bare ++
    entryIf o.database.truthy "database" o.database.bare
  .ofPairs <|
    entryIf (!head.isEmpty) "schema" (.ofPairs head) ++
    [("tables", .ofList (o.tables.map TableOutline.document))]

/-- What is written for a schema is the document of its outline. -/
theorem bare_encodeSchema (h : st.Writable s) :
    ∃ v, encodeSchema st s = .ok v ∧ v.bare = (st.schemaOutline s).document := by
  have hall : ∀ t ∈ (st.schema s).tables.map (·.2),
      ∃ v, encodeTable st t = .ok v ∧ v.bare = (st.outline t).document := by
    intro t ht
    obtain ⟨e, he, rfl⟩ := List.mem_map.mp ht
    exact bare_encodeTable (h.table e he).toLegibleTable
  obtain ⟨tables, hwrite, hbare⟩ := exists_encodeAll_bare hall
  refine ⟨_, encodeSchema_eq h.tables hwrite, ?_⟩
  have htables : tables.map Value.bare =
      (st.schemaOutline s).tables.map TableOutline.document := by
    rw [hbare, List.map_map, List.map_map, Store.schemaOutline, List.map_map]
    rfl
  have hhead : (encodeHead st s).map (fun p => (p.1, p.2.bare)) =
      entryIf (st.schemaOutline s).name.truthy "name" (st.schemaOutline s).name.bare ++
        entryIf (st.schemaOutline s).database.truthy "database"
          (st.schemaOutline s).database.bare := by
    simp only [encodeHead, List.map_append, map_bare_entryIf, bare_slotValue]
    rfl
  rw [SchemaOutline.document, ← hhead, Value.bare_ofPairs, schemaEntries]
  simp only [List.map_append, map_bare_entryIf, Value.bare_ofList, Value.bare_ofPairs, htables,
    List.isEmpty_map]
  rfl

/-- Settling a schema does not change what is written for it. -/
theorem document_settledSchema (st : Store) (s : SchemaId) :
    (settledSchema st s).document = (st.schemaOutline s).document := by
  have htables : (settledSchema st s).tables.map TableOutline.document =
      (st.schemaOutline s).tables.map TableOutline.document := by
    simp only [settledSchema, Store.schemaOutline, List.map_map]
    exact List.map_congr_left fun e _ => document_settledOutline st e.2
  rw [SchemaOutline.document, htables, SchemaOutline.document]
  simp only [settledSchema, truthy_settledText, entryIf_settledText]
  rfl

/-! ### The normal form -/

variable {v : Value}

/-- **The normal form of a document is its own normal form.**  When any document is read and the
schema is written, what is written is the document of the schema's outline.  It is read again, into
any store, and the schema that this gives is written as the same document. -/
theorem normalisation_idempotent {path : String} {d : Value} {st₀ : Store}
    (hread : outcome (decodeDocument path d) st₀ = (.ok s, st)) (hwrite : encodeSchema st s = .ok v)
    (path' : String) (st₁ : Store) :
    v.bare = (st.schemaOutline s).document ∧
      ∃ s' st' v', outcome (decodeDocument path' v) st₁ = (.ok s', st') ∧
        encodeSchema st' s' = .ok v' ∧ v'.bare = v.bare := by
  -- the document describes the outline of the schema; this was written, so it has tables and fields
  have hdescribed := describes_decodeDocument path d st₀ st₀ rfl
  rw [hread] at hdescribed
  obtain ⟨o, hdescribe, hbuild, hload⟩ := hdescribed
  have hfilled := filled_of_encodeSchema hwrite
  have hwritable : st.Writable s :=
    hdescribe.writable hbuild (hload.schemaOutline_eq ▸ hfilled) hload
  obtain ⟨_, hwrite', hbare⟩ := bare_encodeSchema hwritable
  cases hwrite.symm.trans hwrite'
  -- what was written describes the settled outline, which is written in the same way
  obtain ⟨_, hwrite'', hdescribe'⟩ := describes_encodeSchema hwritable
  cases hwrite.symm.trans hwrite''
  obtain ⟨s', st', hread', -, hload'⟩ :=
    (ensures_decodeDocument hdescribe' hwritable.buildable path' st₁).exists_ok rfl
  -- so the second schema can be written for the same reason as the first one
  have hwritable' : st'.Writable s' :=
    hdescribe'.writable hwritable.buildable (filled_settledSchema hfilled) hload'
  obtain ⟨v', hwrite₂, hbare'⟩ := bare_encodeSchema hwritable'
  refine ⟨hbare, s', st', v', hread', hwrite₂, ?_⟩
  rw [hbare', hload'.schemaOutline_eq, document_settledSchema, hbare]

/-- A definition of one table, with lists of names in one text, a size in a text, flags of other
shapes and kinds in other spellings, is read and written.  What is written is read beside it and
written in the same way. -/
theorem normalisation_idempotent_of_users :
    let d : Value := .ofPairs [("table", .text "users"), ("options", .text "a, ,b "),
      ("fields", .ofList [
        .ofPairs [("name", .text " id "), ("size", .text "10, 2"), ("nullable", .int 0),
          ("auto_increment", .text "yes"), ("extra", .null)],
        .ofPairs [("name", .text "note"), ("data_type", .null), ("nullable", .text "no"),
          ("default", .ofTexts []), ("comments", .bool false), ("extra", .ofTexts ["x"])]]),
      ("indices", .ofList [.ofPairs [("type", .text " fulltext"), ("fields", .text "note, id")],
        .ofPairs [("type", .text "normal"), ("name", .null)]]),
      ("constraints", .ofList [.ofPairs [("type", .text "primary_key"), ("fields", .text "id"),
        ("deferrable", .text ""), ("reference_table", .int 0), ("expression", .ofTexts ["e"])]])]
    let st := (outcome (decodeDocument "users.yaml" d) .empty).2
    ∃ v, outcome (decodeDocument "users.yaml" d) .empty = (.ok ⟨0⟩, st) ∧
      encodeSchema st ⟨0⟩ = .ok v ∧
      ∃ s' st' v', outcome (decodeDocument "normal.yaml" v) st = (.ok s', st') ∧
        encodeSchema st' s' = .ok v' ∧ v'.bare = v.bare := by
  intro d st
  have hfirst : (outcome (decodeDocument "users.yaml" d) .empty).1.toOption = some ⟨0⟩ := by
    decide +kernel
  have hsome : (encodeSchema st ⟨0⟩).toOption.isSome := by decide +kernel
  have hread : outcome (decodeDocument "users.yaml" d) .empty = (.ok ⟨0⟩, st) := by
    refine Prod.ext ?_ rfl
    rcases h : (outcome (decodeDocument "users.yaml" d) .empty).1 with e | s <;>
      rw [h] at hfirst <;> cases hfirst
    rfl
  rcases hwrite : encodeSchema st ⟨0⟩ with e | v
  · rw [hwrite] at hsome
    cases hsome
  · exact ⟨v, hread, rfl, (normalisation_idempotent hread hwrite "normal.yaml" st).2⟩

end DbSchema
