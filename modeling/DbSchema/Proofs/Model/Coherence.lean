import DbSchema.Proofs.Keys
import DbSchema.Proofs.Model.Changes
import DbSchema.Proofs.Model.Lifetime

/-!
# Coherent stores

In every store that calls lead to, descriptions are tidy, a schema lists no two tables under equal
keys, and a table and its children agree: each child belongs to the table that lists it, a field is
listed under its own name, no two fields under equal names, and the order numbers grow in the order
in which the fields were added and stay below the next one.

## Main definitions

* `Store.TableCoherent st t` — a table agrees with its children.
* `Store.Coherent st` — the store has all these properties.
* `Store.ListsNamed st` — every table that a schema lists has a name.

## Main results

* `Store.Coherent.of_change` — every change keeps them.
* `Store.Coherent.sweep` — so does emptying the cells of objects that nothing holds.
* `coherent_of_reachable`, `listsNamed_of_reachable` — they hold in every history.
-/

namespace DbSchema

namespace Store

/-- A table agrees with the children that it lists. -/
structure TableCoherent (st : Store) (t : TableId) : Prop where
  field : ∀ e ∈ (st.table t).fields,
    (st.field e.2).owner = some (.table t) ∧ (st.field e.2).name = e.1 ∧ e.1.truthy
  distinct : Keyed.Distinct Value.same (st.table t).fields
  orders : ∃ numbers : List Nat,
    (st.table t).fields.map (fun e => (st.field e.2).order) = numbers.map (fun n => .int n) ∧
    numbers.Pairwise (· < ·) ∧ ∀ n ∈ numbers, n < (st.table t).nextOrder
  index : ∀ i ∈ (st.table t).indices, (st.index i).owner = some (.table t)
  constraint : ∀ c ∈ (st.table t).constraints, (st.constraint c).owner = some (.table t)
  options : Normalised (st.table t).options

/-- Descriptions are tidy, keys are distinct and tables agree with their children. -/
structure Coherent (st : Store) : Prop where
  fieldTidy : ∀ f, (st.field f).toFieldSpec.Tidy
  indexTidy : ∀ i, (st.index i).toIndexSpec.Tidy
  constraintTidy : ∀ c, (st.constraint c).toConstraintSpec.Tidy
  keys : ∀ s, Keyed.Distinct Value.same (st.schema s).tables
  table : ∀ t, st.TableCoherent t

variable {st st' : Store}

/-! ### Tables that are left alone -/

/-- A table without children agrees with them. -/
theorem TableCoherent.of_childless {t : TableId} (hf : (st.table t).fields = [])
    (hi : (st.table t).indices = []) (hc : (st.table t).constraints = [])
    (ho : Normalised (st.table t).options) : st.TableCoherent t where
  field := by simp [hf]
  distinct := by rw [hf]; exact Keyed.distinct_nil
  orders := ⟨[], by simp [hf]⟩
  index := by simp [hi]
  constraint := by simp [hc]
  options := ho

/-- What a change keeps of a table and of the children that it lists, so that they still agree. -/
structure KeepsTable (st st' : Store) (t : TableId) : Prop where
  fields : (st'.table t).fields = (st.table t).fields
  indices : (st'.table t).indices = (st.table t).indices
  constraints : (st'.table t).constraints = (st.table t).constraints
  nextOrder : (st'.table t).nextOrder = (st.table t).nextOrder
  options : Normalised (st.table t).options → Normalised (st'.table t).options
  field : ∀ e ∈ (st.table t).fields, (st'.field e.2).owner = (st.field e.2).owner ∧
    (st'.field e.2).name = (st.field e.2).name ∧ (st'.field e.2).order = (st.field e.2).order
  index : ∀ i ∈ (st.table t).indices, (st'.index i).owner = (st.index i).owner
  constraint : ∀ c ∈ (st.table t).constraints, (st'.constraint c).owner = (st.constraint c).owner

theorem TableCoherent.of_keeps {t : TableId} (h : st.TableCoherent t) (hk : KeepsTable st st' t) :
    st'.TableCoherent t where
  field := by
    rw [hk.fields]
    intro e he
    obtain ⟨ho, hn, -⟩ := hk.field e he
    rw [ho, hn]
    exact h.field e he
  distinct := by rw [hk.fields]; exact h.distinct
  orders := by
    have hord : (st.table t).fields.map (fun e => (st'.field e.2).order) =
        (st.table t).fields.map (fun e => (st.field e.2).order) :=
      List.map_congr_left fun e he => (hk.field e he).2.2
    rw [hk.fields, hk.nextOrder, hord]
    exact h.orders
  index := by
    rw [hk.indices]
    intro i hi
    rw [hk.index i hi]
    exact h.index i hi
  constraint := by
    rw [hk.constraints]
    intro c hc
    rw [hk.constraint c hc]
    exact h.constraint c hc
  options := hk.options h.options

theorem keepsTable_setTable_of_ne {t u : TableId} (hu : u ≠ t) (x : Table) :
    KeepsTable st (st.setTable t x) u := by
  constructor <;> simp [table_setTable_of_ne st hu]

/-- A change of a table that leaves its children where they are. -/
theorem keepsTable_setTable {x : Table} {t : TableId} (hf : x.fields = (st.table t).fields)
    (hi : x.indices = (st.table t).indices) (hc : x.constraints = (st.table t).constraints)
    (hn : x.nextOrder = (st.table t).nextOrder)
    (ho : Normalised (st.table t).options → Normalised x.options) :
    KeepsTable st (st.setTable t x) t := by
  constructor <;> simp_all

/-- A change of a field keeps its place in a table that lists it. -/
theorem keepsTable_setField {f : FieldId} {x : Field} {t : TableId}
    (h : ∀ e ∈ (st.table t).fields, e.2 = f →
      x.owner = (st.field f).owner ∧ x.name = (st.field f).name ∧ x.order = (st.field f).order) :
    KeepsTable st (st.setField f x) t := by
  refine ⟨rfl, rfl, rfl, rfl, id, fun e he => ?_, fun i _ => rfl, fun c _ => rfl⟩
  by_cases hf : e.2 = f
  · rw [hf, field_setField_self]
    exact h e he hf
  · rw [field_setField_of_ne st hf]
    exact ⟨rfl, rfl, rfl⟩

theorem keepsTable_setIndex {i : IndexId} {x : Index} {t : TableId}
    (h : i ∈ (st.table t).indices → x.owner = (st.index i).owner) :
    KeepsTable st (st.setIndex i x) t := by
  refine ⟨rfl, rfl, rfl, rfl, id, fun e _ => ⟨rfl, rfl, rfl⟩, fun j hj => ?_, fun c _ => rfl⟩
  by_cases hi : j = i
  · subst hi
    rw [index_setIndex_self]
    exact h hj
  · rw [index_setIndex_of_ne st hi]

theorem keepsTable_setConstraint {c : ConstraintId} {x : Constraint} {t : TableId}
    (h : c ∈ (st.table t).constraints → x.owner = (st.constraint c).owner) :
    KeepsTable st (st.setConstraint c x) t := by
  refine ⟨rfl, rfl, rfl, rfl, id, fun e _ => ⟨rfl, rfl, rfl⟩, fun i _ => rfl, fun d hd => ?_⟩
  by_cases hc : d = c
  · subst hc
    rw [constraint_setConstraint_self]
    exact h hd
  · rw [constraint_setConstraint_of_ne st hc]

/-- A table that lives keeps its children, since it holds them. -/
theorem TableCoherent.keepsTable_sweep {t : TableId} (h : st.TableCoherent t) {roots : List Ref}
    (ht : Ref.table t ∈ st.aliveFrom roots) : KeepsTable st (st.sweep roots) t := by
  have hclosed := closedIn_aliveFrom st roots (.table t) ht
  have htable := (table_sweep st roots t).trans (if_pos (by simpa using ht))
  -- the owner of a child is known by a weak reference, which holds as long as the table lives
  have howner : (some (Ref.table t)).filter (st.aliveFrom roots).contains = some (.table t) := by
    simp [ht]
  refine ⟨?_, ?_, ?_, ?_, ?_, fun e he => ?_, fun i hi => ?_, fun c hc => ?_⟩ <;> try rw [htable]
  · exact id
  · have hf := hclosed _ (field_mem_holds he)
    rw [field_sweep, if_pos (by simpa using hf)]
    refine ⟨?_, rfl, rfl⟩
    dsimp only
    rw [(h.field e he).1, howner]
  · have hi' := hclosed _ (index_mem_holds hi)
    rw [index_sweep, if_pos (by simpa using hi')]
    dsimp only
    rw [h.index i hi, howner]
  · have hc' := hclosed _ (constraint_mem_holds hc)
    rw [constraint_sweep, if_pos (by simpa using hc')]
    dsimp only
    rw [h.constraint c hc, howner]

/-! ### Children that are made and added -/

/-- A field that belongs to something is in a cell in use. -/
theorem field_lt_of_owner {f : FieldId} {r : Ref} (h : (st.field f).owner = some r) :
    f.index < st.fields.size := by
  by_contra hlt
  rw [st.field_of_size_le (not_lt.mp hlt)] at h
  cases h

theorem index_lt_of_owner {i : IndexId} {r : Ref} (h : (st.index i).owner = some r) :
    i.index < st.indices.size := by
  by_contra hlt
  rw [st.index_of_size_le (not_lt.mp hlt)] at h
  cases h

theorem constraint_lt_of_owner {c : ConstraintId} {r : Ref}
    (h : (st.constraint c).owner = some r) : c.index < st.constraints.size := by
  by_contra hlt
  rw [st.constraint_of_size_le (not_lt.mp hlt)] at h
  cases h

theorem table_lt_of_owner {t : TableId} {s : SchemaId} (h : (st.table t).owner = some s) :
    t.index < st.tables.size := by
  by_contra hlt
  rw [st.table_of_size_le (not_lt.mp hlt)] at h
  cases h

namespace TableCoherent

variable {t : TableId}

/-- A new field is in no table. -/
theorem ne_newField (h : st.TableCoherent t) :
    ∀ e ∈ (st.table t).fields, e.2 ≠ ⟨st.fields.size⟩ := fun e he hf =>
  Nat.ne_of_lt (field_lt_of_owner (h.field e he).1) (congrArg FieldId.index hf)

theorem ne_newIndex (h : st.TableCoherent t) :
    ∀ i ∈ (st.table t).indices, i ≠ ⟨st.indices.size⟩ := fun i hi he =>
  Nat.ne_of_lt (index_lt_of_owner (h.index i hi)) (congrArg IndexId.index he)

theorem ne_newConstraint (h : st.TableCoherent t) :
    ∀ c ∈ (st.table t).constraints, c ≠ ⟨st.constraints.size⟩ := fun c hc he =>
  Nat.ne_of_lt (constraint_lt_of_owner (h.constraint c hc)) (congrArg ConstraintId.index he)

/-- Making a child leaves a table alone. -/
theorem keeps_newField (h : st.TableCoherent t) (x : Field) :
    KeepsTable st (st.setField ⟨st.fields.size⟩ x) t :=
  keepsTable_setField fun e he hf => absurd hf (h.ne_newField e he)

theorem keeps_newIndex (h : st.TableCoherent t) (x : Index) :
    KeepsTable st (st.setIndex ⟨st.indices.size⟩ x) t :=
  keepsTable_setIndex fun hi => absurd rfl (h.ne_newIndex _ hi)

theorem keeps_newConstraint (h : st.TableCoherent t) (x : Constraint) :
    KeepsTable st (st.setConstraint ⟨st.constraints.size⟩ x) t :=
  keepsTable_setConstraint fun hc => absurd rfl (h.ne_newConstraint _ hc)

/-- A table that gets one more field. -/
theorem withField (h : st.TableCoherent t) {f : FieldId} (hout : ∀ e ∈ (st.table t).fields, e.2 ≠ f)
    (hmay : Edit.mayAddField st t f = .ok ()) : (Edit.withField st t f).TableCoherent t := by
  obtain ⟨htruthy, -, hfree⟩ := Edit.mayAddField_eq_ok_iff.mp hmay
  have ht := h.of_keeps (keepsTable_setField (f := f)
    (x := { st.field f with owner := some (.table t), order := .int (st.table t).nextOrder })
    fun e he hf => absurd hf (hout e he))
  obtain ⟨numbers, hnum, hinc, hlt⟩ := ht.orders
  constructor
  · intro e he
    simp only [Edit.withField, table_setTable_self, List.mem_append, List.mem_singleton] at he
    rcases he with he | rfl
    · exact ht.field e he
    · simp [Edit.withField, htruthy]
  · rw [Edit.withField, table_setTable_self]
    exact ht.distinct.append hfree f
  · -- the new number is the next one, which all others are below
    refine ⟨numbers ++ [(st.table t).nextOrder], ?_, ?_, ?_⟩
    · simpa [Edit.withField] using hnum
    · refine List.pairwise_append.mpr ⟨hinc, List.pairwise_singleton _ _, fun n hn m hm => ?_⟩
      rw [List.mem_singleton.mp hm]
      exact hlt n hn
    · intro n hn
      rw [Edit.withField, table_setTable_self]
      rcases List.mem_append.mp hn with hn | hn
      · exact Nat.lt_succ_of_lt (hlt n hn)
      · rw [List.mem_singleton.mp hn]
        exact Nat.lt_succ_self _
  · intro i hi
    rw [Edit.withField, table_setTable_self] at hi
    exact ht.index i hi
  · intro c hc
    rw [Edit.withField, table_setTable_self] at hc
    exact ht.constraint c hc
  · rw [Edit.withField, table_setTable_self]
    exact ht.options

/-- A table that gets one more index. -/
theorem withIndex (h : st.TableCoherent t) (i : IndexId) :
    (Edit.withIndex st t i).TableCoherent t := by
  have ht := h.of_keeps (keepsTable_setIndex (x := { st.index i with owner := some (.table t) })
    fun hi => (h.index i hi).symm)
  constructor <;> rw [Edit.withIndex, table_setTable_self]
  · exact ht.field
  · exact ht.distinct
  · exact ht.orders
  · intro j hj
    rcases List.mem_append.mp hj with hj | hj
    · exact ht.index j hj
    · rw [List.mem_singleton.mp hj, index_setTable, index_setIndex_self]
  · exact ht.constraint
  · exact ht.options

/-- A table that gets one more constraint. -/
theorem withConstraint (h : st.TableCoherent t) (c : ConstraintId) :
    (Edit.withConstraint st t c).TableCoherent t := by
  have ht := h.of_keeps (keepsTable_setConstraint
    (x := { st.constraint c with owner := some (.table t) }) fun hc => (h.constraint c hc).symm)
  constructor <;> rw [Edit.withConstraint, table_setTable_self]
  · exact ht.field
  · exact ht.distinct
  · exact ht.orders
  · exact ht.index
  · intro d hd
    rcases List.mem_append.mp hd with hd | hd
    · exact ht.constraint d hd
    · rw [List.mem_singleton.mp hd, constraint_setTable, constraint_setConstraint_self]
  · exact ht.options

end TableCoherent

/-! ### Changes of one cell -/

namespace Coherent

theorem setSchema (h : st.Coherent) (s : SchemaId) {x : Schema}
    (hx : Keyed.Distinct Value.same x.tables) : (st.setSchema s x).Coherent where
  fieldTidy := h.fieldTidy
  indexTidy := h.indexTidy
  constraintTidy := h.constraintTidy
  keys s' := by
    by_cases hs : s' = s
    · rw [hs, schema_setSchema_self]
      exact hx
    · rw [schema_setSchema_of_ne st hs]
      exact h.keys s'
  table t := (h.table t).of_keeps (by constructor <;> simp)

theorem setTable (h : st.Coherent) {t : TableId} {x : Table}
    (hx : (st.setTable t x).TableCoherent t) : (st.setTable t x).Coherent where
  fieldTidy := h.fieldTidy
  indexTidy := h.indexTidy
  constraintTidy := h.constraintTidy
  keys := h.keys
  table u := by
    by_cases hu : u = t
    · rw [hu]
      exact hx
    · exact (h.table u).of_keeps (keepsTable_setTable_of_ne hu x)

theorem setField (h : st.Coherent) {f : FieldId} {x : Field} (hx : x.toFieldSpec.Tidy)
    (hk : ∀ t, KeepsTable st (st.setField f x) t) : (st.setField f x).Coherent where
  fieldTidy g := by
    by_cases hg : g = f
    · rw [hg, field_setField_self]
      exact hx
    · rw [field_setField_of_ne st hg]
      exact h.fieldTidy g
  indexTidy := h.indexTidy
  constraintTidy := h.constraintTidy
  keys := h.keys
  table t := (h.table t).of_keeps (hk t)

theorem setIndex (h : st.Coherent) {i : IndexId} {x : Index} (hx : x.toIndexSpec.Tidy)
    (hk : ∀ t, KeepsTable st (st.setIndex i x) t) : (st.setIndex i x).Coherent where
  fieldTidy := h.fieldTidy
  indexTidy j := by
    by_cases hj : j = i
    · rw [hj, index_setIndex_self]
      exact hx
    · rw [index_setIndex_of_ne st hj]
      exact h.indexTidy j
  constraintTidy := h.constraintTidy
  keys := h.keys
  table t := (h.table t).of_keeps (hk t)

theorem setConstraint (h : st.Coherent) {c : ConstraintId} {x : Constraint}
    (hx : x.toConstraintSpec.Tidy) (hk : ∀ t, KeepsTable st (st.setConstraint c x) t) :
    (st.setConstraint c x).Coherent where
  fieldTidy := h.fieldTidy
  indexTidy := h.indexTidy
  constraintTidy d := by
    by_cases hd : d = c
    · rw [hd, constraint_setConstraint_self]
      exact hx
    · rw [constraint_setConstraint_of_ne st hd]
      exact h.constraintTidy d
  keys := h.keys
  table t := (h.table t).of_keeps (hk t)

/-- A change of a table that leaves its children where they are. -/
theorem setTable_keeping (h : st.Coherent) {t : TableId} {x : Table}
    (hf : x.fields = (st.table t).fields) (hi : x.indices = (st.table t).indices)
    (hc : x.constraints = (st.table t).constraints) (hn : x.nextOrder = (st.table t).nextOrder)
    (ho : Normalised (st.table t).options → Normalised x.options) : (st.setTable t x).Coherent :=
  h.setTable ((h.table t).of_keeps (keepsTable_setTable hf hi hc hn ho))

/-! ### Children that are in no table -/

/-- A field without an owner is in no table. -/
theorem not_listed_of_owner_none (h : st.Coherent) {f : FieldId} (hf : (st.field f).owner = none)
    (t : TableId) : ∀ e ∈ (st.table t).fields, e.2 ≠ f := by
  rintro e he rfl
  have := ((h.table t).field e he).1
  rw [hf] at this
  cases this

/-- Neither is a field that may be added to the only table that may hold it. -/
theorem not_listed_of_mayAddField (h : st.Coherent) {f : FieldId} {t : TableId}
    (hown : (st.field f).owner = none ∨ (st.field f).owner = some (.table t))
    (hmay : Edit.mayAddField st t f = .ok ()) (u : TableId) :
    ∀ e ∈ (st.table u).fields, e.2 ≠ f := by
  rcases hown with hnone | hown
  · exact h.not_listed_of_owner_none hnone u
  rintro e he rfl
  obtain ⟨hu, hname, -⟩ := (h.table u).field e he
  rw [hown] at hu
  cases hu
  -- The table would have to hold the field under its own name, but that name is not taken.
  have hfree : Keyed.find? Value.same (st.field e.2).name (st.table t).fields = none :=
    (Edit.mayAddField_eq_ok_iff.mp hmay).2.2
  obtain ⟨s, hs, -⟩ := (h.fieldTidy e.2).name
  have hne := Keyed.find?_eq_none.mp hfree e he
  rw [← hname, hs, Value.same] at hne
  simp at hne

/-! ### Every change -/

theorem withField (h : st.Coherent) {f : FieldId} {t : TableId}
    (hown : (st.field f).owner = none ∨ (st.field f).owner = some (.table t))
    (hmay : Edit.mayAddField st t f = .ok ()) : (Edit.withField st t f).Coherent := by
  have hout := h.not_listed_of_mayAddField hown hmay
  exact (h.setField (by exact h.fieldTidy f) fun u => keepsTable_setField fun e he hf =>
    absurd hf (hout u e he)).setTable ((h.table t).withField (hout t) hmay)

theorem withIndex (h : st.Coherent) {i : IndexId} {t : TableId}
    (hown : (st.index i).owner = none ∨ (st.index i).owner = some (.table t)) :
    (Edit.withIndex st t i).Coherent := by
  have hkeep : ∀ u, KeepsTable st (st.setIndex i { st.index i with owner := some (.table t) }) u :=
    fun u => keepsTable_setIndex fun hi => by
      rcases hown with hnone | hown
      · rw [(h.table u).index i hi] at hnone
        cases hnone
      · rw [hown]
  exact (h.setIndex (by exact h.indexTidy i) hkeep).setTable ((h.table t).withIndex i)

theorem withConstraint (h : st.Coherent) {c : ConstraintId} {t : TableId}
    (hown : (st.constraint c).owner = none ∨ (st.constraint c).owner = some (.table t)) :
    (Edit.withConstraint st t c).Coherent := by
  have hkeep : ∀ u, KeepsTable st
      (st.setConstraint c { st.constraint c with owner := some (.table t) }) u :=
    fun u => keepsTable_setConstraint fun hc => by
      rcases hown with hnone | hown
      · rw [(h.table u).constraint c hc] at hnone
        cases hnone
      · rw [hown]
  exact (h.setConstraint (by exact h.constraintTidy c) hkeep).setTable
    ((h.table t).withConstraint c)

theorem withNames (h : st.Coherent) (c : ConstraintId) {names : List String}
    (hn : Normalised names) : (Edit.withNames st names c).Coherent := by
  refine h.setConstraint ?_ fun u => keepsTable_setConstraint fun _ => rfl
  have hc := h.constraintTidy c
  obtain ⟨old, hold, hnorm⟩ := hc.fields
  refine ⟨hc.name, hc.kind, ⟨old ++ names, ?_, hnorm.append hn⟩, hc.referenceFields, hc.options⟩
  simp [hold, Value.ofTexts, Value.ofList, Edit.appendNames]

theorem withNote (h : st.Coherent) (name : String) (v : Value) (r : Ref) :
    (DbSchema.withNote st name v r).Coherent := by
  cases r with
  | schema s => exact h.setSchema s (h.keys s)
  | table t => exact h.setTable_keeping rfl rfl rfl rfl id
  | field f =>
    exact h.setField (h.fieldTidy f) fun t => keepsTable_setField fun e _ _ => ⟨rfl, rfl, rfl⟩
  | index i => exact h.setIndex (h.indexTidy i) fun t => keepsTable_setIndex fun _ => rfl
  | constraint c =>
    exact h.setConstraint (h.constraintTidy c) fun t => keepsTable_setConstraint fun _ => rfl

/-- **Every change leaves a coherent store coherent.** -/
theorem of_change (hc : Change st st') (h : st.Coherent) : st'.Coherent := by
  cases hc with
  | newSchema name database => exact h.setSchema _ Keyed.distinct_nil
  | newTable =>
    refine h.setTable (.of_childless ?_ ?_ ?_ ?_) <;> rw [table_setTable_self]
    exact normalised_nil
  | newField hspec => exact h.setField hspec fun t => (h.table t).keeps_newField _
  | newIndex hspec => exact h.setIndex hspec fun t => (h.table t).keeps_newIndex _
  | newConstraint hspec => exact h.setConstraint hspec fun t => (h.table t).keeps_newConstraint _
  | name t _ => exact h.setTable_keeping rfl rfl rfl rfl id
  | attach t owner => exact h.setTable_keeping rfl rfl rfl rfl id
  | list s name _ => exact h.setSchema s ((h.keys s).put name _)
  | unlist s name => exact h.setSchema s ((h.keys s).remove name)
  -- two keys may become equal, and then the later entry replaces the earlier one
  | rekey s old new => exact h.setSchema s (Keyed.distinct_ofList _)
  | addField hown hmay => exact h.withField hown hmay
  | addIndex hown => exact h.withIndex hown
  | addConstraint hown => exact h.withConstraint hown
  | addOptions t hn => exact h.setTable_keeping rfl rfl rfl rfl fun ho => ho.append hn
  | addNames c hn => exact h.withNames c hn
  | note name v r => exact h.withNote name v r

/-! ### Objects that go away -/

/-- **Emptying the cells of what nothing holds leaves a coherent store coherent.** -/
theorem sweep (h : st.Coherent) (roots : List Ref) : (st.sweep roots).Coherent := by
  -- a cell is left as it was or holds the default, which is coherent
  refine ⟨fun f => ?_, fun i => ?_, fun c => ?_, fun s => ?_, fun t => ?_⟩
  · rw [field_sweep]
    split
    · exact h.fieldTidy f
    · exact FieldSpec.tidy_default
  · rw [index_sweep]
    split
    · exact h.indexTidy i
    · exact IndexSpec.tidy_default
  · rw [constraint_sweep]
    split
    · exact h.constraintTidy c
    · exact ConstraintSpec.tidy_default
  · rw [schema_sweep]
    split
    · exact h.keys s
    · exact Keyed.distinct_nil
  · by_cases ht : (st.aliveFrom roots).contains (.table t)
    · exact (h.table t).of_keeps ((h.table t).keepsTable_sweep (by simpa using ht))
    · have htable : (st.sweep roots).table t = default :=
        (table_sweep st roots t).trans (if_neg ht)
      refine .of_childless ?_ ?_ ?_ ?_ <;> rw [htable]
      · rfl
      · rfl
      · rfl
      · exact normalised_nil

theorem empty : Store.empty.Coherent where
  fieldTidy _ := FieldSpec.tidy_default
  indexTidy _ := IndexSpec.tidy_default
  constraintTidy _ := ConstraintSpec.tidy_default
  keys _ := Keyed.distinct_nil
  table _ := .of_childless rfl rfl rfl normalised_nil

end Coherent

end Store

/-! ### Names of listed tables -/

namespace Store

/-- Every table that a schema lists has a name. -/
def ListsNamed (st : Store) : Prop := ∀ s, ∀ e ∈ (st.schema s).tables, (st.table e.2).name.truthy

namespace ListsNamed

variable {st : Store}

theorem setSchema (h : st.ListsNamed) (s : SchemaId) {x : Schema}
    (hx : ∀ e ∈ x.tables, (st.table e.2).name.truthy) : (st.setSchema s x).ListsNamed := by
  intro u
  by_cases hu : u = s
  · rw [hu, schema_setSchema_self]
    exact hx
  · rw [schema_setSchema_of_ne st hu]
    exact h u

theorem setTable (h : st.ListsNamed) {t : TableId} {x : Table}
    (hx : (st.table t).name.truthy → x.name.truthy) : (st.setTable t x).ListsNamed := by
  intro s e he
  by_cases het : e.2 = t
  · rw [het, table_setTable_self]
    exact hx (het ▸ h s e he)
  · rw [table_setTable_of_ne st het]
    exact h s e he

/-- Every change keeps the names of listed tables from being empty. -/
theorem of_change {st' : Store} (hc : Change st st') (h : st.ListsNamed) : st'.ListsNamed := by
  cases hc with
  | newSchema name database => exact h.setSchema _ (by simp)
  | newTable =>
    refine h.setTable fun hname => ?_
    -- a cell that was not in use holds a table without a name
    rw [st.table_of_size_le (t := ⟨st.tables.size⟩) le_rfl] at hname
    cases hname
  | name t hname => exact h.setTable fun _ => hname
  | list s name hname =>
    refine h.setSchema s fun e he => ?_
    rcases Keyed.mem_put he with ⟨k, hk⟩ | he
    · exact h s (k, e.2) hk
    · rw [he]
      exact hname
  | unlist s name => exact h.setSchema s fun e he => h s e (Keyed.remove_sublist name |>.mem he)
  | rekey s old new =>
    refine h.setSchema s fun e he => ?_
    obtain ⟨d, hd, hde⟩ := Keyed.mem_ofList he
    obtain ⟨d', hd', rfl⟩ := List.mem_map.mp hd
    exact hde ▸ h s d' hd'
  | attach t owner => exact h.setTable id
  | addOptions t hn => exact h.setTable id
  | addField hown hmay => exact (show (st.setField _ _).ListsNamed from h).setTable id
  | addIndex hown => exact (show (st.setIndex _ _).ListsNamed from h).setTable id
  | addConstraint hown => exact (show (st.setConstraint _ _).ListsNamed from h).setTable id
  | newField hspec => exact h
  | newIndex hspec => exact h
  | newConstraint hspec => exact h
  | addNames c hn => exact h
  | note name v r =>
    cases r with
    | schema s => exact h.setSchema s (h s)
    | table t => exact h.setTable id
    | _ => exact h

/-- So does emptying the cells of what nothing holds: a schema that lives keeps its tables. -/
theorem sweep (h : st.ListsNamed) (roots : List Ref) : (st.sweep roots).ListsNamed := by
  have hclosed := closedIn_aliveFrom st roots
  intro s e
  rw [schema_sweep]
  split
  · next hs =>
    intro he
    have halive : Ref.table e.2 ∈ st.aliveFrom roots :=
      hclosed _ (by simpa using hs) _ (table_mem_holds he)
    rw [table_sweep, if_pos (by simpa using halive)]
    exact h s e he
  · intro he
    cases he

end ListsNamed

end Store

theorem listsNamed_of_reachable {st : Store} (h : Reachable st) : st.ListsNamed :=
  h.of_changes (fun _ _ he => by cases he) Store.ListsNamed.of_change fun roots hst =>
    hst.sweep roots

/-- **Every store that calls lead to is coherent.** -/
theorem coherent_of_reachable {st : Store} (h : Reachable st) : st.Coherent :=
  h.of_changes Store.Coherent.empty Store.Coherent.of_change fun roots hst => hst.sweep roots

end DbSchema
