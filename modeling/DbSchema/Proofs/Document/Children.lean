import DbSchema.Document.Decode
import DbSchema.Document.Encode
import DbSchema.Proofs.Model.Tidy
import DbSchema.Proofs.Sizes
import DbSchema.Proofs.Values

/-!
# Children in documents

A field, an index or a constraint is written as a mapping that leaves out what has its default, and
read with these defaults filled in.  Reading gives the settled description: a tidy one is left alone
by the tidying, and what counts as false or as empty is read as the default that it was left out
for.  Where the values have the declared types, that is what was written.

## Main definitions

* `ReadAs params ofParams v spec` — the value `v` is read as the description `spec`.
* `FieldSpec.settle`, `ConstraintSpec.settle` — the descriptions that are read again.
* `FieldSpec.Declared`, `ConstraintSpec.Declared` — the attributes that are kept as they are given
  have values of the declared types.
* `rereadField st f` — the description of a field with its values marked as attributes of it.

## Main results

* `readAs_encodeField`, `readAs_encodeIndex`, `readAs_encodeConstraint` — a child that was written
  is read as its settled description.
* `settle_eq_rereadField`, `ConstraintSpec.settle_eq_self` — the settled descriptions of children
  with values of the declared types.
-/

namespace DbSchema

/-- The value is read as the description: it is a mapping with known keys, and its parameters make
the description. -/
def ReadAs {σ : Type} (params : Value → Except LoadError Params)
    (ofParams : Params → Except ModelError σ) (v : Value) (spec : σ) : Prop :=
  ∃ ps, params v = .ok ps ∧ ofParams ps = .ok spec

/-! ### Mappings with text keys -/

theorem all_entryIf (p : String × Value → Bool) (c : Bool) (key : String) (v : Value) :
    (entryIf c key v).all p = (!c || p (key, v)) := by
  cases c <;> simp [entryIf]

theorem map_entryIf (f : String → String) (c : Bool) (key : String) (v : Value) :
    (entryIf c key v).map (fun p => (f p.1, p.2)) = entryIf c (f key) v := by
  cases c <;> rfl

/-- Keys that are all known are accepted. -/
theorem checkKeys_pairs {part : Part} {pairs : List (String × Value)}
    (h : pairs.all (fun p => part.keys.contains p.1) = true) :
    checkKeys part (pairs.map fun p => (.text p.1, p.2)) = .ok () := by
  have hnone : unknownKeys part.keys (pairs.map fun p => (Value.text p.1, p.2)) = .ok [] := by
    unfold unknownKeys
    dsimp only
    rw [List.filter_eq_nil_iff.mpr]
    · simp
    · intro e he
      obtain ⟨p, hp, rfl⟩ := List.mem_map.mp he
      have hk : part.keys.contains p.1 = true := List.all_eq_true.mp h p hp
      simpa using hk
  rw [checkKeys, hnone]

/-- So is a mapping with such keys. -/
theorem partEntries_ofPairs {part : Part} {pairs : List (String × Value)}
    (h : pairs.all (fun p => part.keys.contains p.1) = true) :
    partEntries part (.ofPairs pairs) = .ok (pairs.map fun p => (.text p.1, p.2)) := by
  rw [Value.ofPairs, partEntries, checkKeys_pairs h]
  rfl

theorem paramsOf_pairs (rename : String → String) (pairs : List (String × Value)) :
    paramsOf rename (pairs.map fun p => (.text p.1, p.2)) =
      pairs.map fun p => (rename p.1, p.2) := by
  rw [paramsOf, List.filterMap_map]
  induction pairs with
  | nil => rfl
  | cons p r ih => rw [List.filterMap_cons, List.map_cons, ← ih]; rfl

theorem entry?_pairs (key : String) (pairs : List (String × Value)) :
    Value.entry? key (pairs.map fun p => (.text p.1, p.2)) = pairs.lookup key := by
  induction pairs with
  | nil => rfl
  | cons p r ih =>
    rw [Value.entry?] at ih ⊢
    rw [List.map_cons, List.find?_cons, List.lookup_cons, Value.asText?]
    by_cases hk : key = p.1
    · simp [hk]
    · rw [show (some p.1 == some key) = false by simpa using Ne.symm hk,
        show (key == p.1) = false by simpa using hk]
      exact ih

/-- The parameters of a field definition that has a name. -/
theorem fieldParams_ofPairs {pairs : List (String × Value)} {name : Value}
    (h : pairs.all (fun p => Part.field.keys.contains p.1) = true)
    (hname : pairs.lookup "name" = some name) (htruthy : name.truthy) :
    fieldParams (.ofPairs pairs) = .ok (pairs.map fun p => (fieldParameter p.1, p.2)) := by
  have hvalue : valueAt "name" (pairs.map fun p => (.text p.1, p.2)) = name := by
    rw [valueAt, entry?_pairs, hname]
    rfl
  rw [fieldParams, partEntries_ofPairs h]
  simp only [bind, Except.bind, hvalue, htruthy, Bool.not_true, Bool.false_eq_true, if_false,
    paramsOf_pairs]
  rfl

/-- The parameters of an index or a constraint definition. -/
theorem childParams_ofPairs {part : Part} {pairs : List (String × Value)}
    (h : pairs.all (fun p => part.keys.contains p.1) = true) :
    childParams part (.ofPairs pairs) = .ok pairs := by
  rw [childParams, partEntries_ofPairs h]
  simp only [bind, Except.bind, paramsOf_pairs, id, List.map_id']
  rfl

/-- What a parameter that may be missing fills in; `s` stores the attribute and `g` reads it. -/
theorem fillParams_entryIf {σ : Type} {fill : σ → String → Value → Option σ} {key : String}
    (s : σ → Value → σ) (g : σ → Value) (hs : ∀ spec v, fill spec key v = some (s spec v))
    (hg : ∀ spec, s spec (g spec) = spec) (spec : σ) (c : Bool) (v : Value) (rest : Params) :
    fillParams fill spec (entryIf c key v ++ rest) =
      fillParams fill (s spec (if c then v else g spec)) rest := by
  cases c
  · simp [entryIf, hg]
  · simp [entryIf, fillParams, hs]

/-! ### Attributes that may be left out -/

/-- A value that is a truth value. -/
def IsFlag (v : Value) : Prop := ∃ b, v = .bool b

instance : DecidablePred IsFlag
  | .bool b => .isTrue ⟨b, rfl⟩
  | .null | .int _ | .float _ | .text _ | .bytes _ | .date .. | .datetime .. | .list .. | .tuple ..
  | .set .. | .map .. | .indexKind _ | .constraintKind _ | .object _ => .isFalse nofun

theorem IsText.default {v : Value} (h : IsText v) (owner : Ref) (name : String) :
    (if v.truthy then slotValue owner name v else .text "") = v := by
  obtain ⟨s, rfl⟩ := h
  by_cases hs : s = "" <;> simp [Value.truthy, slotValue, hs]

/-- A text that is an attribute needs no mark. -/
theorem IsText.slotValue_eq {v : Value} (h : IsText v) (owner : Ref) (name : String) :
    slotValue owner name v = v := by
  obtain ⟨s, rfl⟩ := h
  rfl

/-- An attribute that is read as empty text when it is left out for counting as false. -/
def settledText (owner : Ref) (name : String) (v : Value) : Value :=
  if v.truthy then slotValue owner name v else .text ""

theorem IsText.settledText_eq {v : Value} (h : IsText v) (owner : Ref) (name : String) :
    settledText owner name v = v := h.default owner name

/-- What is left out for counting as true is read as true. -/
theorem flag_default_true (v : Value) :
    (if (!v.truthy) = true then Value.bool false else .bool true) = .bool v.truthy := by
  cases v.truthy <;> rfl

/-- What is left out for counting as false is read as false. -/
theorem flag_default_false (v : Value) :
    (if v.truthy then Value.bool true else .bool false) = .bool v.truthy := by
  cases v.truthy <;> rfl

theorem IsFlag.bool_truthy {v : Value} (h : IsFlag v) : .bool v.truthy = v := by
  obtain ⟨b, rfl⟩ := h
  rfl

/-- A value that is left out when it is null. -/
theorem slotValue_default (owner : Ref) (name : String) (v : Value) :
    (if (!v.same .null) = true then slotValue owner name v else .null) =
      slotValue owner name v := by
  by_cases hv : v.same .null
  · rw [if_neg (by simp [hv]), (Value.same_null v).mp hv]
    rfl
  · rw [if_pos (by simpa using hv)]

/-- A trimmed text is read as itself. -/
theorem IsTrimmedText.cleanText {v : Value} (h : IsTrimmedText v) (what : String) :
    ∃ s, cleanText what v = .ok s ∧ .text s = v := by
  obtain ⟨s, rfl, hs⟩ := h
  exact ⟨s, congrArg Except.ok hs, rfl⟩

/-- A list of names is read as itself. -/
theorem IsNameList.nameList {v : Value} (h : IsNameList v) :
    ∃ ns, (∀ owner name, nameList (slotValue owner name v) = .ok ns) ∧ .ofTexts ns = v := by
  obtain ⟨ns, rfl, hns⟩ := h
  refine ⟨ns, fun owner name => ?_, rfl⟩
  have hread := splitNames_texts ns (.slot owner name)
  rw [normalizeNames_eq_self hns] at hread
  rw [DbSchema.nameList, slotValue, Value.ofTexts, Value.ofList, Value.markedAs, hread]

/-- So is one that is left out when it is empty. -/
theorem IsNameList.nameList_default {v : Value} (h : IsNameList v) (owner : Ref) (name : String) :
    ∃ ns, DbSchema.nameList (if v.truthy then slotValue owner name v else .ofList []) = .ok ns ∧
      .ofTexts ns = v := by
  by_cases hv : v.truthy
  · obtain ⟨ns, hread, hns⟩ := h.nameList
    exact ⟨ns, by rw [if_pos hv, hread], hns⟩
  · obtain ⟨ns, rfl, -⟩ := h
    rcases ns with _ | ⟨n, r⟩
    · exact ⟨[], rfl, rfl⟩
    · exact absurd rfl hv

/-- A list of integers is read as itself, whether it is written or left out. -/
theorem parseSize_default {ns : List Int} (owner : Ref) (name : String) :
    parseSize (if (Value.ofInts ns).truthy then slotValue owner name (.ofInts ns)
      else .ofList []) = .ok ns := by
  rcases ns with _ | ⟨n, r⟩
  · rfl
  · exact sizeParts_ints _ (n :: r)

/-! ### Fields -/

/-- A mapping of plain values. -/
def IsPlainMap (v : Value) : Prop := ∃ entries m, v = .map entries m ∧ Value.entriesPlain entries

instance : DecidablePred IsPlainMap
  | .map entries m => decidable_of_iff (Value.entriesPlain entries = true)
      ⟨fun h => ⟨entries, m, rfl, h⟩, by rintro ⟨_, _, ⟨⟩, h⟩; exact h⟩
  | .null | .bool _ | .int _ | .float _ | .text _ | .bytes _ | .date .. | .datetime .. | .list ..
  | .tuple .. | .set .. | .indexKind _ | .constraintKind _ | .object _ => .isFalse nofun

/-- The attributes of a field that are kept as they are given have the declared types: the flags
are truth values, the default and the comments are plain, and the further attributes are a mapping
of plain values. -/
structure FieldSpec.Declared (spec : FieldSpec) : Prop where
  nullable : IsFlag spec.nullable
  autoIncrement : IsFlag spec.autoIncrement
  default : spec.default.isPlain
  comments : spec.comments.isPlain
  extra : IsPlainMap spec.extra

instance (spec : FieldSpec) : Decidable spec.Declared :=
  decidable_of_iff (IsFlag spec.nullable ∧ IsFlag spec.autoIncrement ∧ spec.default.isPlain ∧
    spec.comments.isPlain ∧ IsPlainMap spec.extra)
    ⟨fun ⟨h₁, h₂, h₃, h₄, h₅⟩ => ⟨h₁, h₂, h₃, h₄, h₅⟩,
      fun h => ⟨h.nullable, h.autoIncrement, h.default, h.comments, h.extra⟩⟩

/-- The description of a field that is read again after `owner` was written: its flags are truth
values, and values of any shape are known to be attributes of the owner. -/
def FieldSpec.settle (owner : Ref) (x : FieldSpec) : FieldSpec :=
  { x with
    nullable := .bool x.nullable.truthy
    default := slotValue owner "default_value" x.default
    autoIncrement := .bool x.autoIncrement.truthy
    comments := slotValue owner "comments" x.comments
    extra := if x.extra.truthy then slotValue owner "extra" x.extra else .map [] .own }

/-- The description of a field that is read again: values of any shape are known to be attributes
of the field that was written. -/
def rereadField (st : Store) (f : FieldId) : FieldSpec :=
  let x := st.field f
  { x.toFieldSpec with
    default := slotValue (.field f) "default_value" x.default
    comments := slotValue (.field f) "comments" x.comments
    extra := if x.extra.truthy then slotValue (.field f) "extra" x.extra else .map [] .own }

variable {st : Store}

/-- The description that the entries of a field make, some of which may be left out. -/
theorem fillParams_field (name dataType size nullable default auto comments extra : Value)
    (c₁ c₂ c₃ c₄ c₅ c₆ : Bool) :
    fillParams FieldSpec.fill {}
      (([("name", name), ("data_type", dataType)] ++ entryIf c₁ "size" size ++
        entryIf c₂ "nullable" nullable ++ entryIf c₃ "default" default ++
        entryIf c₄ "auto_increment" auto ++ entryIf c₅ "comments" comments ++
        entryIf c₆ "extra" extra).map fun p => (fieldParameter p.1, p.2)) =
    some
      { name := name
        dataType := dataType
        size := if c₁ then size else .ofList []
        nullable := if c₂ then nullable else .bool true
        default := if c₃ then default else .null
        autoIncrement := if c₄ then auto else .bool false
        comments := if c₅ then comments else .null
        extra := if c₆ then extra else .map [] .own } := by
  simp only [List.map_append, List.map_cons, map_entryIf, List.append_assoc, List.cons_append,
    List.nil_append]
  change fillParams FieldSpec.fill { name := name, dataType := dataType } _ = _
  -- the others may be left out, and each one fills an attribute of its own
  rw [← List.append_nil (entryIf c₆ _ extra),
    fillParams_entryIf (fun x v => { x with size := v }) FieldSpec.size (fun _ _ => rfl)
      fun _ => rfl,
    fillParams_entryIf (fun x v => { x with nullable := v }) FieldSpec.nullable (fun _ _ => rfl)
      fun _ => rfl,
    fillParams_entryIf (fun x v => { x with default := v }) FieldSpec.default (fun _ _ => rfl)
      fun _ => rfl,
    fillParams_entryIf (fun x v => { x with autoIncrement := v }) FieldSpec.autoIncrement
      (fun _ _ => rfl) fun _ => rfl,
    fillParams_entryIf (fun x v => { x with comments := v }) FieldSpec.comments (fun _ _ => rfl)
      fun _ => rfl,
    fillParams_entryIf (fun x v => { x with extra := v }) FieldSpec.extra (fun _ _ => rfl)
      fun _ => rfl]
  rfl

/-- A field with values of the declared types keeps its flags. -/
theorem settle_eq_rereadField {f : FieldId} (hd : (st.field f).toFieldSpec.Declared) :
    (st.field f).toFieldSpec.settle (.field f) = rereadField st f := by
  rw [FieldSpec.settle, hd.nullable.bool_truthy, hd.autoIncrement.bool_truthy]
  rfl

/-- A field that was written is read as its settled description. -/
theorem readAs_encodeField {f : FieldId} (h : (st.field f).toFieldSpec.Tidy)
    (hname : (st.field f).name.truthy) :
    ReadAs fieldParams FieldSpec.ofParams (encodeField st f)
      ((st.field f).toFieldSpec.settle (.field f)) := by
  obtain ⟨size, hsize⟩ := h.size
  obtain ⟨name, hread, htext⟩ := h.name.cleanText "field name"
  obtain ⟨dataType, hread', htext'⟩ := h.dataType.cleanText "data type"
  refine ⟨_, fieldParams_ofPairs ?_ ?_ hname, ?_⟩
  · simp [all_entryIf, Part.keys]
  · simp [h.name.isText.slotValue_eq]
  · rw [FieldSpec.ofParams, specOf, fillParams_field]
    dsimp only
    rw [h.name.isText.slotValue_eq, h.dataType.isText.slotValue_eq, FieldSpec.tidy, hread, hread',
      hsize, parseSize_default]
    simp only [bind, Except.bind, pure, Except.pure, htext, htext', flag_default_true,
      flag_default_false, slotValue_default, FieldSpec.settle, hsize]

/-! ### Indices -/

/-- The description that the entries of an index make. -/
theorem fillParams_index (name kind fields options : Value) (c₁ c₂ c₃ : Bool) :
    fillParams IndexSpec.fill {}
      (entryIf c₁ "name" name ++ entryIf c₂ "type" kind ++ [("fields", fields)] ++
        entryIf c₃ "options" options) =
    some
      { name := if c₁ then name else .text ""
        kind := if c₂ then kind else .indexKind .normal
        fields := fields
        options := if c₃ then options else .ofList [] } := by
  rw [show [("fields", fields)] = entryIf true "fields" fields from rfl,
    ← List.append_nil (_ ++ entryIf c₃ _ options)]
  simp only [List.append_assoc]
  rw [fillParams_entryIf (fun x v => { x with name := v }) IndexSpec.name (fun _ _ => rfl)
      fun _ => rfl,
    fillParams_entryIf (fun x v => { x with kind := v }) IndexSpec.kind (fun _ _ => rfl)
      fun _ => rfl,
    fillParams_entryIf (fun x v => { x with fields := v }) IndexSpec.fields (fun _ _ => rfl)
      fun _ => rfl,
    fillParams_entryIf (fun x v => { x with options := v }) IndexSpec.options (fun _ _ => rfl)
      fun _ => rfl]
  rfl

/-- Every kind of index is the one that its label names. -/
theorem IndexKind.ofText?_label (k : IndexKind) : IndexKind.ofText? k.label = some k := by
  cases k <;> decide +kernel

/-- The entries of an index of the given kind; the ordinary kind is left out. -/
def indexEntries (st : Store) (i : IndexId) (kind : IndexKind) : List (String × Value) :=
  let x := st.index i
  entryIf x.name.truthy "name" (slotValue (.index i) "name" x.name) ++
    entryIf (kind != .normal) "type" (.text kind.label) ++
    [("fields", slotValue (.index i) "fields" x.fields)] ++
    entryIf x.options.truthy "options" (slotValue (.index i) "options" x.options)

theorem encodeIndex_eq {i : IndexId} {kind : IndexKind} (h : (st.index i).kind = .indexKind kind) :
    encodeIndex st i = .ok (.ofPairs (indexEntries st i kind)) := by
  rw [encodeIndex]
  simp only [h, Value.same]
  cases kind <;> rfl

/-- An index that was written is read as what it was. -/
theorem readAs_encodeIndex {i : IndexId} (h : (st.index i).toIndexSpec.Tidy) :
    ∃ v, encodeIndex st i = .ok v ∧
      ReadAs (childParams .index) IndexSpec.ofParams v (st.index i).toIndexSpec := by
  obtain ⟨name, hread, htext⟩ := h.name.cleanText "index name"
  obtain ⟨fields, hfields, hfields'⟩ := h.fields.nameList
  obtain ⟨options, hoptions, hoptions'⟩ := h.options.nameList_default (.index i) "options"
  obtain ⟨kind, hkind⟩ := h.kind
  -- a kind is written by its label, and the ordinary one is left out
  have hreadKind : IndexKind.ofValue?
      (if kind != .normal then .text kind.label else .indexKind .normal) = some kind := by
    cases kind <;> simp [IndexKind.ofValue?, IndexKind.ofText?_label]
  refine ⟨_, encodeIndex_eq hkind, _, childParams_ofPairs ?_, ?_⟩
  · simp [indexEntries, all_entryIf, Part.keys, IndexSpec.parameters]
  · rw [IndexSpec.ofParams, specOf, indexEntries, fillParams_index]
    dsimp only
    rw [h.name.isText.default, IndexSpec.tidy, hread, hfields, hoptions, hreadKind]
    simp only [bind, Except.bind, pure, Except.pure, htext, hfields', hoptions', ← hkind]

/-! ### Constraints -/

/-- The attributes of a constraint that are kept as they are given have the declared types: the
reference, the expression and the actions are texts, and the flag is a truth value. -/
structure ConstraintSpec.Declared (spec : ConstraintSpec) : Prop where
  referenceTable : IsText spec.referenceTable
  expression : IsText spec.expression
  onDelete : IsText spec.onDelete
  onUpdate : IsText spec.onUpdate
  matchType : IsText spec.matchType
  deferrable : IsFlag spec.deferrable

instance (spec : ConstraintSpec) : Decidable spec.Declared :=
  decidable_of_iff (IsText spec.referenceTable ∧ IsText spec.expression ∧ IsText spec.onDelete ∧
    IsText spec.onUpdate ∧ IsText spec.matchType ∧ IsFlag spec.deferrable)
    ⟨fun ⟨h₁, h₂, h₃, h₄, h₅, h₆⟩ => ⟨h₁, h₂, h₃, h₄, h₅, h₆⟩,
      fun h => ⟨h.referenceTable, h.expression, h.onDelete, h.onUpdate, h.matchType, h.deferrable⟩⟩

/-- The description of a constraint that is read again after `owner` was written: its flag is a
truth value, and what counts as false is empty text. -/
def ConstraintSpec.settle (owner : Ref) (x : ConstraintSpec) : ConstraintSpec :=
  { x with
    referenceTable := settledText owner "reference_table" x.referenceTable
    expression := settledText owner "expression" x.expression
    onDelete := settledText owner "on_delete" x.onDelete
    onUpdate := settledText owner "on_update" x.onUpdate
    matchType := settledText owner "match_type" x.matchType
    deferrable := .bool x.deferrable.truthy }

/-- A constraint with values of the declared types is settled. -/
theorem ConstraintSpec.settle_eq_self {x : ConstraintSpec} (hd : x.Declared) (owner : Ref) :
    x.settle owner = x := by
  rw [settle, hd.referenceTable.settledText_eq, hd.expression.settledText_eq,
    hd.onDelete.settledText_eq, hd.onUpdate.settledText_eq, hd.matchType.settledText_eq,
    hd.deferrable.bool_truthy]

/-- The description that the entries of a constraint make. -/
theorem fillParams_constraint
    (name kind fields table expression onDelete onUpdate matchType refs flag options : Value)
    (c₁ c₂ c₃ c₄ c₅ c₆ c₇ c₈ c₉ c₁₀ c₁₁ : Bool) :
    fillParams ConstraintSpec.fill {}
      (entryIf c₁ "name" name ++ entryIf c₂ "type" kind ++ entryIf c₃ "fields" fields ++
        entryIf c₄ "reference_table" table ++ entryIf c₅ "expression" expression ++
        entryIf c₆ "on_delete" onDelete ++ entryIf c₇ "on_update" onUpdate ++
        entryIf c₈ "match_type" matchType ++ entryIf c₉ "reference_fields" refs ++
        entryIf c₁₀ "deferrable" flag ++ entryIf c₁₁ "options" options) =
    some
      { name := if c₁ then name else .text ""
        kind := if c₂ then kind else .null
        fields := if c₃ then fields else .ofList []
        referenceTable := if c₄ then table else .text ""
        expression := if c₅ then expression else .text ""
        onDelete := if c₆ then onDelete else .text ""
        onUpdate := if c₇ then onUpdate else .text ""
        matchType := if c₈ then matchType else .text ""
        referenceFields := if c₉ then refs else .ofList []
        deferrable := if c₁₀ then flag else .bool true
        options := if c₁₁ then options else .ofList [] } := by
  -- every entry fills an attribute of its own, so they are taken off one by one
  rw [← List.append_nil (_ ++ entryIf c₁₁ _ options)]
  simp only [List.append_assoc]
  rw [fillParams_entryIf (fun x v => { x with name := v }) ConstraintSpec.name (fun _ _ => rfl)
      fun _ => rfl,
    fillParams_entryIf (fun x v => { x with kind := v }) ConstraintSpec.kind (fun _ _ => rfl)
      fun _ => rfl,
    fillParams_entryIf (fun x v => { x with fields := v }) ConstraintSpec.fields (fun _ _ => rfl)
      fun _ => rfl,
    fillParams_entryIf (fun x v => { x with referenceTable := v }) ConstraintSpec.referenceTable
      (fun _ _ => rfl) fun _ => rfl,
    fillParams_entryIf (fun x v => { x with expression := v }) ConstraintSpec.expression
      (fun _ _ => rfl) fun _ => rfl,
    fillParams_entryIf (fun x v => { x with onDelete := v }) ConstraintSpec.onDelete
      (fun _ _ => rfl) fun _ => rfl,
    fillParams_entryIf (fun x v => { x with onUpdate := v }) ConstraintSpec.onUpdate
      (fun _ _ => rfl) fun _ => rfl,
    fillParams_entryIf (fun x v => { x with matchType := v }) ConstraintSpec.matchType
      (fun _ _ => rfl) fun _ => rfl,
    fillParams_entryIf (fun x v => { x with referenceFields := v }) ConstraintSpec.referenceFields
      (fun _ _ => rfl) fun _ => rfl,
    fillParams_entryIf (fun x v => { x with deferrable := v }) ConstraintSpec.deferrable
      (fun _ _ => rfl) fun _ => rfl,
    fillParams_entryIf (fun x v => { x with options := v }) ConstraintSpec.options (fun _ _ => rfl)
      fun _ => rfl]
  rfl

/-- The entries of a constraint, where the one for its kind is given. -/
def constraintEntries (st : Store) (c : ConstraintId) (kind : Option ConstraintKind) :
    List (String × Value) :=
  let x := st.constraint c
  let optional (name : String) (v : Value) : List (String × Value) :=
    entryIf v.truthy name (slotValue (.constraint c) name v)
  optional "name" x.name ++
    entryIf kind.isSome "type" (kind.elim .null fun k => .text k.label) ++
    optional "fields" x.fields ++
    optional "reference_table" x.referenceTable ++
    optional "expression" x.expression ++
    optional "on_delete" x.onDelete ++
    optional "on_update" x.onUpdate ++
    optional "match_type" x.matchType ++
    optional "reference_fields" x.referenceFields ++
    entryIf (!x.deferrable.truthy) "deferrable" (.bool false) ++
    optional "options" x.options

theorem encodeConstraint_eq {c : ConstraintId} {kind : Option ConstraintKind}
    (h : (st.constraint c).kind = kind.elim .null .constraintKind) :
    encodeConstraint st c = .ok (.ofPairs (constraintEntries st c kind)) := by
  rw [encodeConstraint]
  simp only [h]
  rcases kind with _ | k
  · simp only [Option.elim, Value.same]
    rfl
  · have hsome : (Value.constraintKind k).same .null = false := by
      simp [Value.same, Value.sameNumber, Value.asInt?]
    simp only [Option.elim, hsome]
    rfl

/-- The kind of a tidy constraint, if it has one. -/
theorem ConstraintSpec.NearlyTidy.exists_kind {x : ConstraintSpec} (h : x.NearlyTidy) :
    ∃ kind : Option ConstraintKind, x.kind = kind.elim .null .constraintKind := by
  rcases h.kind with hnone | ⟨k, hk⟩
  · exact ⟨none, hnone⟩
  · exact ⟨some k, hk⟩

/-- A constraint that was written is read as its settled description with a trimmed name. -/
theorem readAs_encodeConstraint {c : ConstraintId}
    (h : (st.constraint c).toConstraintSpec.NearlyTidy) :
    ∃ v, encodeConstraint st c = .ok v ∧
      ReadAs (childParams .constraint) ConstraintSpec.ofParams v
        ((st.constraint c).toConstraintSpec.settle (.constraint c)).trimmed := by
  obtain ⟨name, hname⟩ := h.name
  have hread : cleanText "constraint name" (st.constraint c).name = .ok (Text.trim name) := by
    rw [hname]
    rfl
  obtain ⟨fields, hfields, hfields'⟩ := h.fields.nameList_default (.constraint c) "fields"
  obtain ⟨refs, hrefs, hrefs'⟩ :=
    h.referenceFields.nameList_default (.constraint c) "reference_fields"
  obtain ⟨options, hoptions, hoptions'⟩ := h.options.nameList_default (.constraint c) "options"
  obtain ⟨kind, hkind⟩ := h.exists_kind
  have hreadKind : ConstraintSpec.readKind
      (if kind.isSome then kind.elim .null fun k => .text k.label else .null) = .ok kind := by
    rcases kind with _ | k
    · rfl
    -- the label of every kind names that kind, and none of them is empty
    · cases k <;> rfl
  refine ⟨_, encodeConstraint_eq hkind, _, childParams_ofPairs ?_, ?_⟩
  · simp [constraintEntries, all_entryIf, Part.keys, ConstraintSpec.parameters]
  · rw [ConstraintSpec.ofParams, specOf, constraintEntries, fillParams_constraint]
    dsimp only
    rw [h.name.default, flag_default_true, ConstraintSpec.tidy, hread, hfields, hrefs, hoptions,
      hreadKind]
    simp only [bind, Except.bind, pure, Except.pure, hfields', hrefs', hoptions', ← hkind]
    rw [ConstraintSpec.trimmed, ConstraintSpec.settle, hname]
    rfl

end DbSchema
