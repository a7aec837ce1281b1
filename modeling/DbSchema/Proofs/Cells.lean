import DbSchema.Model.Basic
import Mathlib.Data.List.GetD
import Mathlib.Tactic.Common

/-!
# Cells before and after a change

A store only ever grows: objects are made in new cells and changed in their own.  This module says
what a store holds after one cell was filled, and when one store holds all that another one held.

## Main definitions

* `Slots.Extends` — the cells of the first list are the first cells of the second.
* `Store.Extends` — every object of the first store is in the second, unchanged.

## Main results

* `Slots.Extends.get_eq` — a cell that was there holds what it held.
* `Slots.Extends.set` — filling a cell that was not there changes none that was.
* `Store.Extends.setTable` and its like — the same for the objects of a store.
-/

namespace DbSchema

namespace Slots

variable {α : Type} [Inhabited α]

/-- The first cells are the ones of another list of cells. -/
def Extends (a b : Slots α) : Prop := a.cells <+: b.cells

theorem setCell_append (cells rest : List α) (i : Nat) (x : α) (h : cells.length ≤ i) :
    setCell (cells ++ rest) i x = cells ++ setCell rest (i - cells.length) x := by
  induction cells generalizing i with
  | nil => simp
  | cons a r ih =>
    obtain ⟨j, rfl⟩ : ∃ j, i = j + 1 := ⟨i - 1, by simp at h; omega⟩
    have hj : r.length ≤ j := by simpa using h
    rw [List.cons_append, setCell, ih j hj]
    simp

theorem length_setCell (cells : List α) (i : Nat) (x : α) :
    (setCell cells i x).length = max cells.length (i + 1) := by
  induction cells generalizing i with
  | nil =>
    induction i with
    | zero => simp [setCell]
    | succ i ih => rw [setCell, List.length_cons, ih]; simp
  | cons a r ih =>
    cases i with
    | zero => simp [setCell]
    | succ i => rw [setCell, List.length_cons, ih]; simp only [List.length_cons]; omega

@[simp] theorem size_set (s : Slots α) (i : Nat) (x : α) :
    (s.set i x).size = max s.size (i + 1) := length_setCell s.cells i x

theorem setCell_setCell (cells : List α) (i : Nat) (x y : α) :
    setCell (setCell cells i x) i y = setCell cells i y := by
  induction cells generalizing i with
  | nil =>
    induction i with
    | zero => rfl
    | succ i ih => rw [setCell, setCell, setCell, ih]
  | cons a r ih =>
    cases i with
    | zero => rfl
    | succ i => rw [setCell, setCell, setCell, ih]

/-- The last value that a cell was filled with stays. -/
@[simp] theorem set_set (s : Slots α) (i : Nat) (x y : α) : (s.set i x).set i y = s.set i y := by
  rw [set, set, set, setCell_setCell]

theorem get_of_size_le (s : Slots α) {i : Nat} (h : s.size ≤ i) : s.get i = default := by
  rw [get, List.getD_eq_default _ _ h]

namespace Extends

variable {a b c : Slots α}

omit [Inhabited α] in
theorem refl (a : Slots α) : a.Extends a := List.prefix_rfl

omit [Inhabited α] in
theorem trans (h : a.Extends b) (h' : b.Extends c) : a.Extends c := List.IsPrefix.trans h h'

omit [Inhabited α] in
theorem size_le (h : a.Extends b) : a.size ≤ b.size := h.length_le

/-- A cell that was there holds what it held. -/
theorem get_eq (h : a.Extends b) {i : Nat} (hi : i < a.size) : b.get i = a.get i := by
  obtain ⟨r, hr⟩ := h
  rw [get, get, ← hr, List.getD_append _ _ _ _ hi]

/-- Filling a cell that was not there changes none that was. -/
theorem set (h : a.Extends b) {i : Nat} (hi : a.size ≤ i) (x : α) : a.Extends (b.set i x) := by
  obtain ⟨r, hr⟩ := h
  rw [Extends, Slots.set, ← hr, setCell_append _ _ _ _ hi]
  exact List.prefix_append _ _

end Extends

end Slots

namespace Store

/-! ### Cells that are not in use -/

section

variable (st : Store)

theorem schema_of_size_le {s : SchemaId} (h : st.schemas.size ≤ s.index) :
    st.schema s = default := Slots.get_of_size_le _ h

theorem table_of_size_le {t : TableId} (h : st.tables.size ≤ t.index) :
    st.table t = default := Slots.get_of_size_le _ h

theorem field_of_size_le {f : FieldId} (h : st.fields.size ≤ f.index) :
    st.field f = default := Slots.get_of_size_le _ h

theorem index_of_size_le {i : IndexId} (h : st.indices.size ≤ i.index) :
    st.index i = default := Slots.get_of_size_le _ h

theorem constraint_of_size_le {c : ConstraintId} (h : st.constraints.size ≤ c.index) :
    st.constraint c = default := Slots.get_of_size_le _ h

end

/-! ### Reading after writing -/

section

variable (st : Store)

@[simp] theorem schema_setSchema_self (s : SchemaId) (x : Schema) :
    (st.setSchema s x).schema s = x := Slots.get_set_self _ _ _

@[simp] theorem table_setTable_self (t : TableId) (x : Table) :
    (st.setTable t x).table t = x := Slots.get_set_self _ _ _

@[simp] theorem field_setField_self (f : FieldId) (x : Field) :
    (st.setField f x).field f = x := Slots.get_set_self _ _ _

@[simp] theorem index_setIndex_self (i : IndexId) (x : Index) :
    (st.setIndex i x).index i = x := Slots.get_set_self _ _ _

@[simp] theorem constraint_setConstraint_self (c : ConstraintId) (x : Constraint) :
    (st.setConstraint c x).constraint c = x := Slots.get_set_self _ _ _

@[simp] theorem setTable_setTable (t : TableId) (x y : Table) :
    (st.setTable t x).setTable t y = st.setTable t y := by
  simp [setTable]

theorem schema_setSchema_of_ne {s s' : SchemaId} (h : s' ≠ s) (x : Schema) :
    (st.setSchema s x).schema s' = st.schema s' :=
  Slots.get_set_other _ _ fun h' => h (by cases s; cases s'; exact congrArg _ h'.symm)

theorem table_setTable_of_ne {t t' : TableId} (h : t' ≠ t) (x : Table) :
    (st.setTable t x).table t' = st.table t' :=
  Slots.get_set_other _ _ fun h' => h (by cases t; cases t'; exact congrArg _ h'.symm)

theorem field_setField_of_ne {f f' : FieldId} (h : f' ≠ f) (x : Field) :
    (st.setField f x).field f' = st.field f' :=
  Slots.get_set_other _ _ fun h' => h (by cases f; cases f'; exact congrArg _ h'.symm)

theorem index_setIndex_of_ne {i i' : IndexId} (h : i' ≠ i) (x : Index) :
    (st.setIndex i x).index i' = st.index i' :=
  Slots.get_set_other _ _ fun h' => h (by cases i; cases i'; exact congrArg _ h'.symm)

theorem constraint_setConstraint_of_ne {c c' : ConstraintId} (h : c' ≠ c) (x : Constraint) :
    (st.setConstraint c x).constraint c' = st.constraint c' :=
  Slots.get_set_other _ _ fun h' => h (by cases c; cases c'; exact congrArg _ h'.symm)

variable (s : SchemaId) (xs : Schema) (t : TableId) (xt : Table) (f : FieldId) (xf : Field)
  (i : IndexId) (xi : Index) (c : ConstraintId) (xc : Constraint)

@[simp] theorem table_setSchema : (st.setSchema s xs).table t = st.table t := rfl
@[simp] theorem field_setSchema : (st.setSchema s xs).field f = st.field f := rfl
@[simp] theorem index_setSchema : (st.setSchema s xs).index i = st.index i := rfl
@[simp] theorem constraint_setSchema : (st.setSchema s xs).constraint c = st.constraint c := rfl
@[simp] theorem schema_setTable : (st.setTable t xt).schema s = st.schema s := rfl
@[simp] theorem field_setTable : (st.setTable t xt).field f = st.field f := rfl
@[simp] theorem index_setTable : (st.setTable t xt).index i = st.index i := rfl
@[simp] theorem constraint_setTable : (st.setTable t xt).constraint c = st.constraint c := rfl
@[simp] theorem schema_setField : (st.setField f xf).schema s = st.schema s := rfl
@[simp] theorem table_setField : (st.setField f xf).table t = st.table t := rfl
@[simp] theorem index_setField : (st.setField f xf).index i = st.index i := rfl
@[simp] theorem constraint_setField : (st.setField f xf).constraint c = st.constraint c := rfl
@[simp] theorem schema_setIndex : (st.setIndex i xi).schema s = st.schema s := rfl
@[simp] theorem table_setIndex : (st.setIndex i xi).table t = st.table t := rfl
@[simp] theorem field_setIndex : (st.setIndex i xi).field f = st.field f := rfl
@[simp] theorem constraint_setIndex : (st.setIndex i xi).constraint c = st.constraint c := rfl
@[simp] theorem schema_setConstraint : (st.setConstraint c xc).schema s = st.schema s := rfl
@[simp] theorem table_setConstraint : (st.setConstraint c xc).table t = st.table t := rfl
@[simp] theorem field_setConstraint : (st.setConstraint c xc).field f = st.field f := rfl
@[simp] theorem index_setConstraint : (st.setConstraint c xc).index i = st.index i := rfl

end

/-! ### Stores that only grew -/

/-- Every object of the first store is in the second one, unchanged. -/
structure Extends (st st' : Store) : Prop where
  schemas : st.schemas.Extends st'.schemas
  tables : st.tables.Extends st'.tables
  fields : st.fields.Extends st'.fields
  indices : st.indices.Extends st'.indices
  constraints : st.constraints.Extends st'.constraints

namespace Extends

variable {a b c : Store}

theorem refl (a : Store) : a.Extends a := ⟨.refl _, .refl _, .refl _, .refl _, .refl _⟩

theorem trans (h : a.Extends b) (h' : b.Extends c) : a.Extends c :=
  ⟨h.schemas.trans h'.schemas, h.tables.trans h'.tables, h.fields.trans h'.fields,
    h.indices.trans h'.indices, h.constraints.trans h'.constraints⟩

theorem schema_eq (h : a.Extends b) {s : SchemaId} (hs : s.index < a.schemas.size) :
    b.schema s = a.schema s := h.schemas.get_eq hs

theorem table_eq (h : a.Extends b) {t : TableId} (ht : t.index < a.tables.size) :
    b.table t = a.table t := h.tables.get_eq ht

theorem field_eq (h : a.Extends b) {f : FieldId} (hf : f.index < a.fields.size) :
    b.field f = a.field f := h.fields.get_eq hf

theorem index_eq (h : a.Extends b) {i : IndexId} (hi : i.index < a.indices.size) :
    b.index i = a.index i := h.indices.get_eq hi

theorem constraint_eq (h : a.Extends b) {c : ConstraintId} (hc : c.index < a.constraints.size) :
    b.constraint c = a.constraint c := h.constraints.get_eq hc

theorem setSchema (h : a.Extends b) {s : SchemaId} (hs : a.schemas.size ≤ s.index) (x : Schema) :
    a.Extends (b.setSchema s x) := { h with schemas := h.schemas.set hs x }

theorem setTable (h : a.Extends b) {t : TableId} (ht : a.tables.size ≤ t.index) (x : Table) :
    a.Extends (b.setTable t x) := { h with tables := h.tables.set ht x }

theorem setField (h : a.Extends b) {f : FieldId} (hf : a.fields.size ≤ f.index) (x : Field) :
    a.Extends (b.setField f x) := { h with fields := h.fields.set hf x }

theorem setIndex (h : a.Extends b) {i : IndexId} (hi : a.indices.size ≤ i.index) (x : Index) :
    a.Extends (b.setIndex i x) := { h with indices := h.indices.set hi x }

theorem setConstraint (h : a.Extends b) {c : ConstraintId} (hc : a.constraints.size ≤ c.index)
    (x : Constraint) : a.Extends (b.setConstraint c x) :=
  { h with constraints := h.constraints.set hc x }

end Extends

end Store

end DbSchema
