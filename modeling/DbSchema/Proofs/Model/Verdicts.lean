import DbSchema.Model.Validity
import DbSchema.Proofs.Model.Outline

/-!
# Validity depends on outlines

Whether a schema is valid, and which rule is reported as broken, depends only on the outlines of its
tables, and of the fields in them only on the names and the types.  Two schemas in two stores that
agree in this get the same verdict.

## Main definitions

* `SameRules o o'` — the outlines agree in all that the rules look at.
* `TableOutline.Named o` — the names in the outline are texts.
* `Alike st s st' s' e e'` — entries of two registries whose tables agree in this way.

## Main results

* `Alike.checkTable` — such tables get the same verdict.
* `checkSchema_congr` — so do schemas that list such tables.
-/

namespace DbSchema

/-- The outlines agree in all that the rules look at. -/
structure SameRules (o o' : TableOutline) : Prop where
  name : o.name = o'.name
  fields : o.fields.map (fun x => (x.name, x.dataType)) =
    o'.fields.map fun x => (x.name, x.dataType)
  indices : o.indices = o'.indices
  constraints : o.constraints = o'.constraints

/-- The names of the fields, indices and constraints are texts. -/
structure TableOutline.Named (o : TableOutline) : Prop where
  field : ∀ x ∈ o.fields, IsText x.name
  index : ∀ x ∈ o.indices, IsText x.name
  constraint : ∀ x ∈ o.constraints, IsText x.name

/-- The text of a name is the same everywhere. -/
theorem IsText.plain_eq {v : Value} (h : IsText v) (st st' : Store) : st.plain v = st'.plain v := by
  obtain ⟨s, rfl⟩ := h
  rw [Store.plain, Store.plain, Value.plain, Value.plain]

/-- Checks that agree item by item give the same verdict. -/
theorem checkAll_congr {α β : Type} {check : α → Except ModelError Unit}
    {check' : β → Except ModelError Unit} {l : List α} {l' : List β}
    (h : List.Forall₂ (fun a b => check a = check' b) l l') :
    checkAll check l = checkAll check' l' := by
  induction h with
  | nil => rfl
  | cons hab _ ih => rw [checkAll, checkAll, hab, ih]

variable {st st' : Store} {s s' : SchemaId} {t t' : TableId}

/-! ### Names of fields -/

/-- The names under which a coherent table lists its fields are in its outline. -/
theorem Store.TableCoherent.keys (h : st.TableCoherent t) :
    (st.table t).fields.map (·.1) = (st.outline t).fields.map (·.name) := by
  rw [Store.outline, List.map_map]
  exact List.map_congr_left fun e he => (h.field e he).2.1.symm

section

variable (h : (st.table t).fields.map (·.1) = (st'.table t').fields.map (·.1))
include h

theorem checkNames_congr (names : List Value) :
    checkNames st t names = checkNames st' t' names := by
  -- a name is found in both tables or in neither
  have hrel : ∀ name, Option.Rel (fun _ _ => True)
      (Keyed.find? Value.same name (st.table t).fields)
      (Keyed.find? Value.same name (st'.table t').fields) :=
    Keyed.find?_rel ((forall₂_of_map_eq h).imp fun e e' he => ⟨he.2.2, trivial⟩)
  induction names with
  | nil => rfl
  | cons name r ih =>
    rw [checkNames, checkNames, fieldNamed, fieldNamed, Table.field?, Table.field?]
    by_cases htruthy : name.truthy
    · by_cases hhash : name.hashable
      · simp only [htruthy, hhash, Bool.not_true, Bool.false_eq_true, if_false]
        have hfound := hrel name
        generalize Keyed.find? Value.same name (st.table t).fields = found at hfound ⊢
        generalize Keyed.find? Value.same name (st'.table t').fields = found' at hfound ⊢
        cases hfound with
        | none => rfl
        | some _ => exact ih
      · simp [htruthy, hhash]
    · simp [htruthy]

theorem checkFieldsExist_congr (names : Value) :
    checkFieldsExist st (.table t) names = checkFieldsExist st' (.table t') names := by
  unfold checkFieldsExist
  generalize names.items = items
  rcases items with f | _ | ⟨name, r⟩
  · rfl
  · rfl
  · exact checkNames_congr h _

end

/-! ### Children -/

/-- A field that a coherent table lists is found there, so only its type can be missing. -/
theorem checkField_listed (h : st.TableCoherent t) {e : Value × FieldId}
    (he : e ∈ (st.table t).fields) (htext : IsText (st.field e.2).name) :
    checkField st e.2 =
      if !(st.field e.2).dataType.truthy then broken (.noDataType (st.plain (st.field e.2).name))
      else .ok () := by
  obtain ⟨howner, hname, htruthy⟩ := h.field e he
  rw [← hname] at htruthy
  have hfound : fieldNamed st t (st.field e.2).name = .ok e.2 := by
    have hself : Value.same e.1 e.1 := by
      obtain ⟨n, hn⟩ := htext
      rw [← hname, hn, Value.same]
      exact beq_self_eq_true n
    have hfind : (st.table t).field? (st.field e.2).name = some e.2 := by
      rw [hname]
      exact Keyed.find?_of_mem h.distinct he hself
    have hhash : (st.field e.2).name.hashable := by
      obtain ⟨n, hn⟩ := htext
      rw [hn]
      rfl
    rw [fieldNamed, hfind]
    simp [htruthy, hhash]
  rw [checkField]
  simp only [htruthy, howner, hfound, Bool.not_true, Bool.false_eq_true, if_false, if_true]

/-- What two entries of registries must agree in to get the same verdict. -/
structure Alike (st : Store) (s : SchemaId) (st' : Store) (s' : SchemaId)
    (e e' : Value × TableId) : Prop where
  key : e.1 = e'.1
  owner : (st.table e.2).owner = some s
  owner' : (st'.table e'.2).owner = some s'
  coherent : st.TableCoherent e.2
  coherent' : st'.TableCoherent e'.2
  rules : SameRules (st.outline e.2) (st'.outline e'.2)
  named : (st.outline e.2).Named

namespace Alike

variable {e e' : Value × TableId}

/-- The tables list their fields under the same names. -/
theorem keys (h : Alike st s st' s' e e') :
    (st.table e.2).fields.map (·.1) = (st'.table e'.2).fields.map (·.1) := by
  have hnames := congrArg (List.map Prod.fst) h.rules.fields
  rw [List.map_map, List.map_map] at hnames
  rw [h.coherent.keys, h.coherent'.keys]
  exact hnames

theorem checkFields (h : Alike st s st' s' e e') :
    checkAll (checkField st) ((st.table e.2).fields.map (·.2)) =
      checkAll (checkField st') ((st'.table e'.2).fields.map (·.2)) := by
  have hfields := h.rules.fields
  rw [Store.outline, Store.outline, List.map_map, List.map_map] at hfields
  refine checkAll_congr (List.forall₂_map_left_iff.mpr (List.forall₂_map_right_iff.mpr ?_))
  refine (forall₂_of_map_eq hfields).imp fun d d' hd => ?_
  obtain ⟨hmem, hmem', hsame⟩ := hd
  obtain ⟨hname, htype⟩ := Prod.ext_iff.mp hsame
  dsimp only [Function.comp_apply] at hname htype
  have htext : IsText (st.field d.2).name := h.named.field _ (List.mem_map.mpr ⟨d, hmem, rfl⟩)
  rw [checkField_listed h.coherent hmem htext, checkField_listed h.coherent' hmem' (hname ▸ htext),
    ← hname, ← htype, htext.plain_eq st st']

theorem checkIndices (h : Alike st s st' s' e e') :
    checkAll (checkIndex st) (st.table e.2).indices =
      checkAll (checkIndex st') (st'.table e'.2).indices := by
  refine checkAll_congr ((forall₂_of_map_eq h.rules.indices).imp fun i i' hi => ?_)
  obtain ⟨hmem, hmem', hsame⟩ := hi
  have htext : IsText (st.index i).name := h.named.index _ (List.mem_map.mpr ⟨i, hmem, rfl⟩)
  have hname : (st'.index i').name = (st.index i).name := (congrArg IndexSpec.name hsame).symm
  have hfields : (st'.index i').fields = (st.index i).fields :=
    (congrArg IndexSpec.fields hsame).symm
  rw [checkIndex, checkIndex]
  simp only [h.coherent.index i hmem, h.coherent'.index i' hmem', hfields, indexLabel, hname,
    htext.plain_eq st st', checkFieldsExist_congr h.keys]

end Alike

/-! ### Constraints -/

/-- A kind of constraint is missing exactly when it does not count as true. -/
theorem Value.same_null_of_kind {v : Value} (h : v = .null ∨ ∃ k, v = .constraintKind k) :
    v.same .null = !v.truthy := by
  rcases h with rfl | ⟨k, rfl⟩
  · rw [Value.same]
    rfl
  · rw [Value.same]
    · rfl
    all_goals simp

/-- What a constraint is called depends only on its description. -/
theorem constraintLabel_congr {x x' : Constraint} (hname : x'.name = x.name)
    (hkind : x'.kind = x.kind) (htext : IsText x.name) :
    constraintLabel st x = constraintLabel st' x' := by
  rw [constraintLabel, constraintLabel, hname, hkind, htext.plain_eq st st']

section

variable (hall : List.Forall₂ (Alike st s st' s') (st.schema s).tables (st'.schema s').tables)
include hall

/-- The tables that two schemas list under a name agree. -/
theorem lookupTable_congr (name : Value) :
    (∃ x, lookupTable st s name = .error x ∧ lookupTable st' s' name = .error x) ∨
    (lookupTable st s name = .ok none ∧ lookupTable st' s' name = .ok none) ∨
    ∃ u u', lookupTable st s name = .ok (some u) ∧ lookupTable st' s' name = .ok (some u') ∧
      (st.table u).fields.map (·.1) = (st'.table u').fields.map (·.1) := by
  rw [lookupTable, lookupTable]
  by_cases hhash : name.hashable
  · have hrel : Option.Rel
        (fun u u' => (st.table u).fields.map (·.1) = (st'.table u').fields.map (·.1))
        ((st.schema s).find? name) ((st'.schema s').find? name) :=
      Keyed.find?_rel (hall.imp fun e e' he => ⟨he.key, he.keys⟩) name
    simp only [hhash, if_true]
    refine Or.inr ?_
    generalize (st.schema s).find? name = found at hrel ⊢
    generalize (st'.schema s').find? name = found' at hrel ⊢
    cases hrel with
    | none => exact Or.inl ⟨rfl, rfl⟩
    | some hkeys => exact Or.inr ⟨_, _, rfl, rfl, hkeys⟩
  · exact Or.inl ⟨_, if_neg hhash, if_neg hhash⟩

theorem checkReference_congr {x x' : Constraint} {label : String}
    (hspec : x.toConstraintSpec = x'.toConstraintSpec) (howner : (st.table t).owner = some s)
    (howner' : (st'.table t').owner = some s') :
    checkReference st x label (.table t) = checkReference st' x' label (.table t') := by
  have htable : x'.referenceTable = x.referenceTable :=
    (congrArg ConstraintSpec.referenceTable hspec).symm
  have hfields : x'.referenceFields = x.referenceFields :=
    (congrArg ConstraintSpec.referenceFields hspec).symm
  rw [checkReference, checkReference, htable, hfields]
  simp only [howner, howner']
  obtain ⟨e, h, h'⟩ | ⟨h, h'⟩ | ⟨u, u', h, h', hkeys⟩ :=
    lookupTable_congr hall x.referenceTable
  · rw [h, h']
  · rw [h, h']
  · rw [h, h']
    simp only [checkFieldsExist_congr hkeys]

theorem Alike.checkConstraints {e e' : Value × TableId} (h : Alike st s st' s' e e') :
    checkAll (checkConstraint st) (st.table e.2).constraints =
      checkAll (checkConstraint st') (st'.table e'.2).constraints := by
  refine checkAll_congr ((forall₂_of_map_eq h.rules.constraints).imp fun c c' hc => ?_)
  obtain ⟨hmem, hmem', hsame⟩ := hc
  have htext : IsText (st.constraint c).name :=
    h.named.constraint _ (List.mem_map.mpr ⟨c, hmem, rfl⟩)
  have hkind : (st'.constraint c').kind = (st.constraint c).kind :=
    (congrArg ConstraintSpec.kind hsame).symm
  have hfields : (st'.constraint c').fields = (st.constraint c).fields :=
    (congrArg ConstraintSpec.fields hsame).symm
  have hexpression : (st'.constraint c').expression = (st.constraint c).expression :=
    (congrArg ConstraintSpec.expression hsame).symm
  have hlabel : constraintLabel st (st.constraint c) = constraintLabel st' (st'.constraint c') :=
    constraintLabel_congr (congrArg ConstraintSpec.name hsame).symm hkind htext
  have href : ∀ label, checkReference st (st.constraint c) label (.table e.2) =
      checkReference st' (st'.constraint c') label (.table e'.2) :=
    fun label => checkReference_congr hall hsame h.owner h.owner'
  rw [checkConstraint, checkConstraint, hlabel]
  simp only [h.coherent.constraint c hmem, h.coherent'.constraint c' hmem', Constraint.isOfKind,
    hkind, hfields, hexpression, href, checkFieldsExist_congr h.keys]

/-- Tables whose outlines agree get the same verdict. -/
theorem Alike.checkTable {e e' : Value × TableId} (h : Alike st s st' s' e e') :
    checkTable st e.2 = checkTable st' e'.2 := by
  have hname : (st.table e.2).name = (st'.table e'.2).name := h.rules.name
  have hempty : (st.table e.2).fields = [] ↔ (st'.table e'.2).fields = [] := by
    rw [← List.map_eq_nil_iff (f := Prod.fst), h.keys, List.map_eq_nil_iff]
  rw [DbSchema.checkTable, DbSchema.checkTable, hname]
  by_cases hnone : (st.table e.2).fields = []
  · have hnone' := hempty.mp hnone
    simp [DbSchema.fieldsOf, hnone, hnone']
  · rw [h.coherent.fieldsOf hnone, h.coherent'.fieldsOf (mt hempty.mpr hnone)]
    simp only [h.checkFields, h.checkIndices, h.checkConstraints hall]

/-- **Schemas whose tables agree get the same verdict.** -/
theorem checkSchema_congr : checkSchema st s = checkSchema st' s' := by
  have hcheck : checkAll (DbSchema.checkTable st) ((st.schema s).tables.map (·.2)) =
      checkAll (DbSchema.checkTable st') ((st'.schema s').tables.map (·.2)) :=
    checkAll_congr (List.forall₂_map_left_iff.mpr (List.forall₂_map_right_iff.mpr
      (hall.imp fun _ _ he => he.checkTable hall)))
  rw [checkSchema, checkSchema, tablesOf, tablesOf]
  generalize (st.schema s).tables = tables at hall hcheck ⊢
  generalize (st'.schema s').tables = tables' at hall hcheck ⊢
  cases hall with
  | nil => rfl
  | cons _ _ => exact hcheck

end

end DbSchema
