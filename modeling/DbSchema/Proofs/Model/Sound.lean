import DbSchema.Proofs.Model.Outline

/-!
# Sound tables

A table that is filled by its own operations is coherent, and its children have tidy descriptions.
It stays so when a constraint in it is given another name, which need not be tidy, or when a field
is told to count up.

## Main definitions

* `Store.SoundTable st t` — the table is coherent and its children have tidy descriptions, apart
  from the names of constraints.
* `Store.SoundSchema st s` — the schema lists sound tables of its own under their names.

## Main results

* `Store.SoundTable.addField` and its like — adding a child keeps a table sound.
* `Store.SoundTable.setConstraint`, `Store.SoundTable.setField` — changes of children.
* `Store.SoundTable.of_extends`, `Store.SoundTable.listed` — what happens to other objects.
-/

namespace DbSchema

open Edit

/-- A table is coherent, and its children have tidy descriptions, apart from the names of
constraints. -/
structure Store.SoundTable (st : Store) (t : TableId) : Prop where
  coherent : st.TableCoherent t
  field : ∀ d ∈ (st.table t).fields, (st.field d.2).toFieldSpec.Tidy
  index : ∀ i ∈ (st.table t).indices, (st.index i).toIndexSpec.Tidy
  constraint : ∀ c ∈ (st.table t).constraints, (st.constraint c).toConstraintSpec.NearlyTidy

/-- The schema lists sound tables, which belong to it, under their names: texts, none of them empty
and none of them twice. -/
structure Store.SoundSchema (st : Store) (s : SchemaId) : Prop where
  key : ∀ e ∈ (st.schema s).tables, e.1 = (st.table e.2).name
  owner : ∀ e ∈ (st.schema s).tables, (st.table e.2).owner = some s
  name : ∀ e ∈ (st.schema s).tables, IsText (st.table e.2).name
  named : ∀ e ∈ (st.schema s).tables, (st.table e.2).name.truthy
  sound : ∀ e ∈ (st.schema s).tables, st.SoundTable e.2
  distinct : (st.schema s).tables.Pairwise fun e e' =>
    (st.table e.2).name.same (st.table e'.2).name = false

namespace Store.SoundTable

variable {b st st' : Store} {t u : TableId}

/-! ### Adding children -/

/-- A draft with such descriptions is sound. -/
theorem of_drafts {o : TableOutline} (h : Drafts b t o st) (hfield : ∀ x ∈ o.fields, x.Tidy)
    (hindex : ∀ x ∈ o.indices, x.Tidy) (hconstraint : ∀ x ∈ o.constraints, x.NearlyTidy) :
    st.SoundTable t := by
  obtain ⟨-, hcoh, rfl⟩ := h
  exact ⟨hcoh, fun d hd => hfield _ (List.mem_map_of_mem hd),
    fun i hi => hindex _ (List.mem_map_of_mem hi),
    fun c hc => hconstraint _ (List.mem_map_of_mem hc)⟩

/-- The outline of a sound table has such descriptions. -/
theorem forall_outline (h : st.SoundTable t) :
    (∀ x ∈ (st.outline t).fields, x.Tidy) ∧ (∀ x ∈ (st.outline t).indices, x.Tidy) ∧
      ∀ x ∈ (st.outline t).constraints, x.NearlyTidy := by
  refine ⟨fun x hx => ?_, fun x hx => ?_, fun x hx => ?_⟩
  · obtain ⟨d, hd, rfl⟩ := List.mem_map.mp hx
    exact h.field d hd
  · obtain ⟨i, hi, rfl⟩ := List.mem_map.mp hx
    exact h.index i hi
  · obtain ⟨c, hc, rfl⟩ := List.mem_map.mp hx
    exact h.constraint c hc

/-- A table that is being built and is sound. -/
abbrev Built (b : Store) (t : TableId) (st : Store) : Prop := Building b t st ∧ st.SoundTable t

theorem drafts (h : Built b t st) : Drafts b t (st.outline t) st := ⟨h.1, h.2.coherent, rfl⟩

theorem addField (params : Params) :
    Ensures (Built b t) (Edit.addField t .null params) (fun _ st => st.SoundTable t)
      fun _ => True := by
  intro st h
  obtain ⟨hfield, hindex, hconstraint⟩ := h.2.forall_outline
  refine Ensures.weaken Drafts.of_addField (fun _ h => h) (fun _ st' h' => ?_) (fun _ h => h) st
    (drafts h)
  obtain ⟨spec, hspec, -, hdraft⟩ := h'
  refine of_drafts hdraft (fun x hx => ?_) hindex hconstraint
  rcases List.mem_append.mp hx with hx | hx
  · exact hfield x hx
  · rw [List.mem_singleton.mp hx]
    exact FieldSpec.tidy_of_ofParams hspec

theorem addIndex (params : Params) :
    Ensures (Built b t) (Edit.addIndex t .null params) (fun _ st => st.SoundTable t)
      fun _ => True := by
  intro st h
  obtain ⟨hfield, hindex, hconstraint⟩ := h.2.forall_outline
  refine Ensures.weaken Drafts.of_addIndex (fun _ h => h) (fun _ st' h' => ?_) (fun _ h => h) st
    (drafts h)
  obtain ⟨spec, hspec, hdraft⟩ := h'
  refine of_drafts hdraft hfield (fun x hx => ?_) hconstraint
  rcases List.mem_append.mp hx with hx | hx
  · exact hindex x hx
  · rw [List.mem_singleton.mp hx]
    exact IndexSpec.tidy_of_ofParams hspec

theorem addConstraint (params : Params) :
    Ensures (Built b t) (Edit.addConstraint t .null params) (fun _ st => st.SoundTable t)
      fun _ => True := by
  intro st h
  obtain ⟨hfield, hindex, hconstraint⟩ := h.2.forall_outline
  refine Ensures.weaken Drafts.of_addConstraint (fun _ h => h) (fun _ st' h' => ?_) (fun _ h => h)
    st (drafts h)
  obtain ⟨spec, hspec, hdraft⟩ := h'
  refine of_drafts hdraft hfield hindex fun x hx => ?_
  rcases List.mem_append.mp hx with hx | hx
  · exact hconstraint x hx
  · rw [List.mem_singleton.mp hx]
    exact (ConstraintSpec.tidy_of_ofParams hspec).nearly

theorem addOptions (values : List Value) :
    Ensures (Built b t) (Edit.addOptions t values) (fun _ st => st.SoundTable t)
      fun _ => True := by
  intro st h
  obtain ⟨hfield, hindex, hconstraint⟩ := h.2.forall_outline
  refine Ensures.weaken Drafts.of_addOptions (fun _ h => h) (fun _ st' h' => ?_) (fun _ h => h) st
    (drafts h)
  obtain ⟨names, -, hdraft⟩ := h'
  exact of_drafts hdraft hfield hindex hconstraint

/-! ### Changes of children -/

theorem setConstraint (h : st.SoundTable t) {k : ConstraintId} {x : Constraint}
    (howner : x.owner = (st.constraint k).owner)
    (hx : (st.constraint k).toConstraintSpec.NearlyTidy → x.toConstraintSpec.NearlyTidy) :
    (st.setConstraint k x).SoundTable t where
  coherent := h.coherent.of_keeps (keepsTable_setConstraint fun _ => howner)
  field := h.field
  index := h.index
  constraint d hd := by
    by_cases hdk : d = k
    · rw [hdk, Store.constraint_setConstraint_self]
      exact hx (hdk ▸ h.constraint d hd)
    · rw [Store.constraint_setConstraint_of_ne _ hdk]
      exact h.constraint d hd

theorem setField (h : st.SoundTable t) {i : FieldId} {x : Field}
    (hsame : x.owner = (st.field i).owner ∧ x.name = (st.field i).name ∧
      x.order = (st.field i).order)
    (hx : (st.field i).toFieldSpec.Tidy → x.toFieldSpec.Tidy) :
    (st.setField i x).SoundTable t where
  coherent := h.coherent.of_keeps (keepsTable_setField fun _ _ _ => hsame)
  field d hd := by
    by_cases hdi : d.2 = i
    · rw [hdi, Store.field_setField_self]
      exact hx (hdi ▸ h.field d hd)
    · rw [Store.field_setField_of_ne _ hdi]
      exact h.field d hd
  index := h.index
  constraint := h.constraint

/-- Names that are appended to the fields of a constraint. -/
theorem extendFields (h : st.SoundTable t) (k : ConstraintId) {names : List String}
    (hn : Normalised names) :
    (outcome (Edit.extendFields k (pure names)) st).2.SoundTable t := by
  rw [Edit.extendFields, outcome_get_bind]
  split
  · next items m hfields =>
    refine h.setConstraint rfl fun htidy => ?_
    obtain ⟨old, hold, hnorm⟩ := htidy.fields
    rw [hfields] at hold
    cases hold
    refine ⟨htidy.name, htidy.kind, ⟨old ++ names, ?_, hnorm.append hn⟩, htidy.referenceFields,
      htidy.options⟩
    simp [Value.ofTexts, Value.ofList]
  · exact h

/-! ### Other objects -/

theorem of_sameCells (h : st.SoundTable t) (hs : Store.SameCells st st' t) : st'.SoundTable t where
  coherent := hs.coherent h.coherent
  field d hd := by
    rw [hs.table] at hd
    rw [hs.field d hd]
    exact h.field d hd
  index i hi := by
    rw [hs.table] at hi
    rw [hs.index i hi]
    exact h.index i hi
  constraint c hc := by
    rw [hs.table] at hc
    rw [hs.constraint c hc]
    exact h.constraint c hc

/-- A store that only grew holds the table as it was. -/
theorem of_extends (h : st.SoundTable t) (hext : st.Extends st') (ht : t.index < st.tables.size) :
    st'.SoundTable t := h.of_sameCells (sameCells_of_extends hext ht h.coherent)

/-- Listing a table, whether it is this one or another. -/
theorem listed (h : st.SoundTable t) (s : SchemaId) (u : TableId) :
    (Edit.listed st s u).SoundTable t := by
  by_cases hu : t = u
  · subst hu
    have hcoh := (listedAs_listed h.coherent s).coherent
    exact ⟨hcoh, by simpa [Edit.listed] using h.field, by simpa [Edit.listed] using h.index,
      by simpa [Edit.listed] using h.constraint⟩
  · exact h.of_sameCells ⟨Store.table_setTable_of_ne _ hu _, fun _ _ => rfl, fun _ _ => rfl,
      fun _ _ => rfl⟩

/-- A change of a schema. -/
theorem setSchema (h : st.SoundTable t) (s : SchemaId) (x : Schema) :
    (st.setSchema s x).SoundTable t :=
  h.of_sameCells ⟨rfl, fun _ _ => rfl, fun _ _ => rfl, fun _ _ => rfl⟩

/-- A new table has no children. -/
theorem newTable (name : Value) :
    Ensures (fun _ : Store => True) (Edit.newTable { name }) (fun t st => st.SoundTable t)
      fun _ => True := by
  intro st _
  rw [outcome_newTable_alone]
  refine ⟨.of_childless ?_ ?_ ?_ ?_, ?_, ?_, ?_⟩ <;> rw [Store.table_setTable_self]
  · exact normalised_nil
  · simp
  · simp
  · simp

end Store.SoundTable

/-- A change of a schema in anything but its tables. -/
theorem Store.SoundSchema.setSchema {st : Store} {s : SchemaId} (h : st.SoundSchema s) {x : Schema}
    (hx : x.tables = (st.schema s).tables) : (st.setSchema s x).SoundSchema s := by
  constructor <;> rw [Store.schema_setSchema_self, hx]
  · exact h.key
  · exact h.owner
  · exact h.name
  · exact h.named
  · exact fun e he => (h.sound e he).setSchema s x
  · exact h.distinct

end DbSchema
