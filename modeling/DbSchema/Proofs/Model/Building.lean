import DbSchema.Proofs.Model.Adding
import DbSchema.Proofs.Model.Naming

/-!
# Building a table beside a store

A table that is built from what a database reports is a new one, and so are all its fields, indices
and constraints.  Building it therefore leaves alone whatever was in the store before.

## Main definitions

* `Building b t st` — `st` is the store `b` with one or more new tables, the last of which is `t`,
  whose fields and constraints are new too.

## Main results

* `building_newTable` — a new table starts the building.
* `Building.addField`, `Building.addIndex`, `Building.addConstraint`, `Building.addOptions`,
  `Building.extendFields` — each operation on the table goes on with it.
-/

namespace DbSchema

open Edit

/-- The store holds all that `b` held, and the table `t` is the last one in it; the table and the
fields and constraints that it lists are new. -/
structure Building (b : Store) (t : TableId) (st : Store) : Prop where
  old : b.Extends st
  new : b.tables.size ≤ t.index
  last : st.tables.size = t.index + 1
  field : ∀ e ∈ (st.table t).fields, b.fields.size ≤ e.2.index
  constraint : ∀ c ∈ (st.table t).constraints, b.constraints.size ≤ c.index

/-- A new table starts the building. -/
theorem building_newTable {b st : Store} (h : b.Extends st) (name : Value) :
    ∃ t st', outcome (newTable { name }) st = (.ok t, st') ∧ Building b t st' := by
  refine ⟨_, _, outcome_newTable_alone st name, ?_⟩
  have hle : b.tables.size ≤ st.tables.size := h.tables.size_le
  refine ⟨h.setTable hle _, hle, ?_, ?_, ?_⟩
  · rw [Store.setTable, Slots.size_set]
    exact max_eq_right (Nat.le_succ _)
  · simp
  · simp

namespace Building

variable {b st : Store} {t : TableId}

/-! ### Changes of one cell -/

theorem inUse (h : Building b t st) : t.index < st.tables.size := by
  rw [h.last]
  exact Nat.lt_succ_self _

theorem setField (h : Building b t st) {f : FieldId} (hf : b.fields.size ≤ f.index) (x : Field) :
    Building b t (st.setField f x) :=
  ⟨h.old.setField hf x, h.new, h.last, h.field, h.constraint⟩

theorem setIndex (h : Building b t st) {i : IndexId} (hi : b.indices.size ≤ i.index) (x : Index) :
    Building b t (st.setIndex i x) :=
  ⟨h.old.setIndex hi x, h.new, h.last, h.field, h.constraint⟩

theorem setConstraint (h : Building b t st) {c : ConstraintId} (hc : b.constraints.size ≤ c.index)
    (x : Constraint) : Building b t (st.setConstraint c x) :=
  ⟨h.old.setConstraint hc x, h.new, h.last, h.field, h.constraint⟩

theorem setTable (h : Building b t st) {x : Table}
    (hf : ∀ e ∈ x.fields, b.fields.size ≤ e.2.index)
    (hc : ∀ c ∈ x.constraints, b.constraints.size ≤ c.index) : Building b t (st.setTable t x) := by
  refine ⟨h.old.setTable h.new x, h.new, ?_, ?_, ?_⟩
  · rw [Store.setTable, Slots.size_set, h.last, max_self]
  · rwa [Store.table_setTable_self]
  · rwa [Store.table_setTable_self]

/-! ### Operations on the table -/

theorem withField (h : Building b t st) {f : FieldId} (hf : b.fields.size ≤ f.index) :
    Building b t (Edit.withField st t f) := by
  refine (h.setField hf _).setTable (fun e he => ?_) h.constraint
  rcases List.mem_append.mp he with he | he
  · exact h.field e he
  · rw [List.mem_singleton.mp he]
    exact hf

theorem withConstraint (h : Building b t st) {c : ConstraintId}
    (hc : b.constraints.size ≤ c.index) : Building b t (Edit.withConstraint st t c) := by
  refine (h.setConstraint hc _).setTable h.field fun d hd => ?_
  rcases List.mem_append.mp hd with hd | hd
  · exact h.constraint d hd
  · rw [List.mem_singleton.mp hd]
    exact hc

theorem addField (h : Building b t st) (params : Params) :
    Building b t (outcome (Edit.addField t .null params) st).2 := by
  have hle : b.fields.size ≤ st.fields.size := h.old.fields.size_le
  rw [outcome_addField, resolveField, outcome_newField]
  rcases FieldSpec.ofParams params with e | spec
  · exact h
  · dsimp only
    split
    · exact h.setField hle _
    · exact (h.setField hle _).withField hle

theorem addIndex (h : Building b t st) (params : Params) :
    Building b t (outcome (Edit.addIndex t .null params) st).2 := by
  have hle : b.indices.size ≤ st.indices.size := h.old.indices.size_le
  rw [outcome_addIndex, resolveIndex, outcome_newIndex]
  rcases IndexSpec.ofParams params with e | spec
  · exact h
  · exact ((h.setIndex hle _).setIndex hle _).setTable h.field h.constraint

theorem addConstraint (h : Building b t st) (params : Params) :
    Building b t (outcome (Edit.addConstraint t .null params) st).2 := by
  have hle : b.constraints.size ≤ st.constraints.size := h.old.constraints.size_le
  rw [outcome_addConstraint, resolveConstraint, outcome_newConstraint]
  rcases ConstraintSpec.ofParams params with e | spec
  · exact h
  · exact (h.setConstraint hle _).withConstraint hle

theorem addOptions (h : Building b t st) (values : List Value) :
    Building b t (outcome (Edit.addOptions t values) st).2 := by
  rw [outcome_addOptions]
  rcases splitNames values with r | names
  · exact h
  · exact h.setTable h.field h.constraint

/-- Extending a new constraint, whether its names are in a list or not. -/
theorem extendFields {c : ConstraintId} (hc : b.constraints.size ≤ c.index) (names : List String) :
    Ensures (Building b t) (Edit.extendFields c (pure names)) (fun _ => Building b t)
      (Building b t) := by
  refine Ensures.iff_outcome.mpr fun st h => ?_
  rw [Edit.extendFields, outcome_get_bind]
  split
  · exact h.setConstraint hc _
  · exact h

/-- The primary key of the table is among its constraints. -/
theorem mem_of_primaryKeyOf {c : ConstraintId} (h : primaryKeyOf st t = .ok c) :
    c ∈ (st.table t).constraints := by
  rw [primaryKeyOf] at h
  rcases hf : firstPrimaryKey? st (st.table t).constraints with _ | d <;> rw [hf] at h <;> cases h
  exact List.mem_of_find?_eq_some hf

end Building

end DbSchema
