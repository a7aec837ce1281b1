import DbSchema.Proofs.Model.Coherence

/-!
# Who owns a child

That a field, an index or a constraint belongs to a table is written down twice: the table lists the
child, and the child points back to the table.  The two always say the same.  So a child is listed
by one table at most, and a child that no table lists points to none; it belongs to nobody from the
moment on in which its table goes away, and any other table may add it then.

## Main definitions

* `Child` — a field, an index or a constraint.
* `Store.ownerOf st c`, `Store.children st t` — what a child points to, and what a table lists.
* `Store.Owned st` — what a child points to is a table that lists it.

## Main results

* `Store.ownership_of_change` — a change leaves it alone who owns what, or one table gets one child.
* `owned_of_reachable` — in every history, owners list what they own.
* `table_owns_children` — a table owns its children exclusively, as long as it lives.
-/

namespace DbSchema

/-- A field, an index or a constraint. -/
inductive Child
  | field (f : FieldId)
  | index (i : IndexId)
  | constraint (c : ConstraintId)
deriving DecidableEq, Repr, Inhabited

namespace Child

/-- The object that a child is. -/
def ref : Child → Ref
  | field f => .field f
  | index i => .index i
  | constraint c => .constraint c

/-- What kind of child it is. -/
def kind : Child → ChildKind
  | field _ => .field
  | index _ => .index
  | constraint _ => .constraint

/-- The call that adds an existing child to a table. -/
def addTo (t : TableId) : Child → Call
  | field f => .addField t (.object (.field f)) []
  | index i => .addIndex t (.object (.index i)) []
  | constraint c => .addConstraint t (.object (.constraint c)) []

end Child

namespace Store

/-- What a child points to. -/
def ownerOf (st : Store) : Child → Option Ref
  | .field f => (st.field f).owner
  | .index i => (st.index i).owner
  | .constraint c => (st.constraint c).owner

/-- The children that a table lists. -/
def children (st : Store) (t : TableId) : List Child :=
  (st.table t).fields.map (fun e => .field e.2) ++ (st.table t).indices.map .index ++
    (st.table t).constraints.map .constraint

/-- A table can add the child as far as names are concerned: a field needs one that is free. -/
def HasPlaceFor (st : Store) (t : TableId) : Child → Prop
  | .field f => (st.table t).field? (st.field f).name = none
  | .index _ | .constraint _ => True

/-- What a child points to is a table that lists it. -/
def Owned (st : Store) : Prop :=
  ∀ c r, st.ownerOf c = some r → ∃ t, r = .table t ∧ c ∈ st.children t

variable {st st' : Store} {t u : TableId} {c : Child}

section

variable {f : FieldId} {i : IndexId} {d : ConstraintId}

@[simp] theorem field_mem_children :
    Child.field f ∈ st.children t ↔ ∃ e ∈ (st.table t).fields, e.2 = f := by
  simp [children]

@[simp] theorem index_mem_children : Child.index i ∈ st.children t ↔ i ∈ (st.table t).indices := by
  simp [children]

@[simp] theorem constraint_mem_children :
    Child.constraint d ∈ st.children t ↔ d ∈ (st.table t).constraints := by
  simp [children]

end

/-- The children of a table point back to it. -/
theorem Coherent.ownerOf_of_mem (h : st.Coherent) (hc : c ∈ st.children t) :
    st.ownerOf c = some (.table t) := by
  cases c with
  | field f =>
    obtain ⟨e, he, rfl⟩ := field_mem_children.mp hc
    exact ((h.table t).field e he).1
  | index i => exact (h.table t).index i (index_mem_children.mp hc)
  | constraint d => exact (h.table t).constraint d (constraint_mem_children.mp hc)

/-! ### Changes -/

/-- Who owns what is as it was. -/
structure SameOwnership (st st' : Store) : Prop where
  owner : ∀ c, st'.ownerOf c = st.ownerOf c
  children : ∀ t, st'.children t = st.children t

/-- A table got one child more, which points to it, and the rest is as it was. -/
structure Adopts (st st' : Store) (t : TableId) (c : Child) : Prop where
  owner_self : st'.ownerOf c = some (.table t)
  owner : ∀ d, d ≠ c → st'.ownerOf d = st.ownerOf d
  children : ∀ u d, d ∈ st'.children u ↔ d ∈ st.children u ∨ u = t ∧ d = c

namespace SameOwnership

/-- A change of a table that leaves its children where they are. -/
theorem setTable {x : Table} (hf : x.fields = (st.table t).fields)
    (hi : x.indices = (st.table t).indices) (hc : x.constraints = (st.table t).constraints) :
    SameOwnership st (st.setTable t x) where
  owner c := by cases c <;> rfl
  children u := by
    by_cases hu : u = t
    · subst hu
      simp only [Store.children, table_setTable_self, hf, hi, hc]
    · simp only [Store.children, table_setTable_of_ne st hu]

theorem setField {f : FieldId} {x : Field} (hx : x.owner = (st.field f).owner) :
    SameOwnership st (st.setField f x) where
  owner c := by
    cases c with
    | field g =>
      by_cases hg : g = f
      · rw [ownerOf, ownerOf, hg, field_setField_self, hx]
      · rw [ownerOf, ownerOf, field_setField_of_ne st hg]
    | _ => rfl
  children _ := rfl

theorem setIndex {i : IndexId} {x : Index} (hx : x.owner = (st.index i).owner) :
    SameOwnership st (st.setIndex i x) where
  owner c := by
    cases c with
    | index j =>
      by_cases hj : j = i
      · rw [ownerOf, ownerOf, hj, index_setIndex_self, hx]
      · rw [ownerOf, ownerOf, index_setIndex_of_ne st hj]
    | _ => rfl
  children _ := rfl

theorem setConstraint {c : ConstraintId} {x : Constraint}
    (hx : x.owner = (st.constraint c).owner) : SameOwnership st (st.setConstraint c x) where
  owner d := by
    cases d with
    | constraint d =>
      by_cases hd : d = c
      · rw [ownerOf, ownerOf, hd, constraint_setConstraint_self, hx]
      · rw [ownerOf, ownerOf, constraint_setConstraint_of_ne st hd]
    | _ => rfl
  children _ := rfl

theorem setSchema (s : SchemaId) (x : Schema) : SameOwnership st (st.setSchema s x) where
  owner c := by cases c <;> rfl
  children _ := rfl

end SameOwnership

theorem adopts_withField (t : TableId) (f : FieldId) :
    Adopts st (Edit.withField st t f) t (.field f) where
  owner_self := by simp [ownerOf, Edit.withField]
  owner d hd := by
    cases d with
    | field g =>
      have hg : g ≠ f := fun he => hd (by rw [he])
      rw [ownerOf, ownerOf, Edit.withField, field_setTable, field_setField_of_ne st hg]
    | _ => rfl
  children u d := by
    by_cases hu : u = t
    · subst hu
      cases d <;> simp [Edit.withField, or_and_right, exists_or, eq_comm]
    · cases d <;> simp [Edit.withField, table_setTable_of_ne _ hu, hu]

theorem adopts_withIndex (t : TableId) (i : IndexId) :
    Adopts st (Edit.withIndex st t i) t (.index i) where
  owner_self := by simp [ownerOf, Edit.withIndex]
  owner d hd := by
    cases d with
    | index j =>
      have hj : j ≠ i := fun he => hd (by rw [he])
      rw [ownerOf, ownerOf, Edit.withIndex, index_setTable, index_setIndex_of_ne st hj]
    | _ => rfl
  children u d := by
    by_cases hu : u = t
    · subst hu
      cases d <;> simp [Edit.withIndex]
    · cases d <;> simp [Edit.withIndex, table_setTable_of_ne _ hu, hu]

theorem adopts_withConstraint (t : TableId) (c : ConstraintId) :
    Adopts st (Edit.withConstraint st t c) t (.constraint c) where
  owner_self := by simp [ownerOf, Edit.withConstraint]
  owner d hd := by
    cases d with
    | constraint d =>
      have hne : d ≠ c := fun he => hd (by rw [he])
      rw [ownerOf, ownerOf, Edit.withConstraint, constraint_setTable,
        constraint_setConstraint_of_ne st hne]
    | _ => rfl
  children u d := by
    by_cases hu : u = t
    · subst hu
      cases d <;> simp [Edit.withConstraint]
    · cases d <;> simp [Edit.withConstraint, table_setTable_of_ne _ hu, hu]

/-- What nobody has made belongs to nobody. -/
theorem ownerOf_new (st : Store) :
    st.ownerOf (.field ⟨st.fields.size⟩) = none ∧ st.ownerOf (.index ⟨st.indices.size⟩) = none ∧
      st.ownerOf (.constraint ⟨st.constraints.size⟩) = none := by
  refine ⟨?_, ?_, ?_⟩
  · rw [ownerOf, st.field_of_size_le (f := ⟨st.fields.size⟩) le_rfl]
    rfl
  · rw [ownerOf, st.index_of_size_le (i := ⟨st.indices.size⟩) le_rfl]
    rfl
  · rw [ownerOf, st.constraint_of_size_le (c := ⟨st.constraints.size⟩) le_rfl]
    rfl

/-- **A change leaves it alone who owns what, or one table gets one child.** -/
theorem ownership_of_change (h : Change st st') :
    SameOwnership st st' ∨ ∃ t c, Adopts st st' t c := by
  -- a new object is in a cell that was not in use, and nobody owned what was there
  obtain ⟨hfield, hindex, hconstraint⟩ := st.ownerOf_new
  have htable : st.table ⟨st.tables.size⟩ = default := st.table_of_size_le le_rfl
  cases h with
  | addField hown hmay => exact Or.inr ⟨_, _, adopts_withField _ _⟩
  | addIndex hown => exact Or.inr ⟨_, _, adopts_withIndex _ _⟩
  | addConstraint hown => exact Or.inr ⟨_, _, adopts_withConstraint _ _⟩
  | newSchema name database => exact Or.inl (.setSchema _ _)
  | newTable => exact Or.inl (.setTable (by rw [htable]; rfl) (by rw [htable]; rfl)
      (by rw [htable]; rfl))
  | newField hspec => exact Or.inl (.setField hfield.symm)
  | newIndex hspec => exact Or.inl (.setIndex hindex.symm)
  | newConstraint hspec => exact Or.inl (.setConstraint hconstraint.symm)
  | name t hname => exact Or.inl (.setTable rfl rfl rfl)
  | attach t owner => exact Or.inl (.setTable rfl rfl rfl)
  | list s name hname => exact Or.inl (.setSchema _ _)
  | unlist s name => exact Or.inl (.setSchema _ _)
  | rekey s old new => exact Or.inl (.setSchema _ _)
  | addOptions t hn => exact Or.inl (.setTable rfl rfl rfl)
  | addNames c hn => exact Or.inl (.setConstraint rfl)
  | note name v r =>
    cases r with
    | schema s => exact Or.inl (.setSchema _ _)
    | table t => exact Or.inl (.setTable rfl rfl rfl)
    | field f => exact Or.inl (.setField rfl)
    | index i => exact Or.inl (.setIndex rfl)
    | constraint c => exact Or.inl (.setConstraint rfl)

/-- Owners still list what they own after a change. -/
theorem Owned.of_change (hc : Change st st') (h : st.Owned) : st'.Owned := by
  intro d r hd
  rcases ownership_of_change hc with hsame | ⟨t, c, hadopts⟩
  · rw [hsame.owner] at hd
    obtain ⟨t, rfl, hmem⟩ := h d r hd
    exact ⟨t, rfl, by rwa [hsame.children]⟩
  · by_cases hdc : d = c
    · -- the child that was added points to the table that got it
      subst hdc
      rw [hadopts.owner_self] at hd
      exact ⟨t, (Option.some.inj hd).symm, (hadopts.children t d).mpr (Or.inr ⟨rfl, rfl⟩)⟩
    · rw [hadopts.owner d hdc] at hd
      obtain ⟨u, rfl, hmem⟩ := h d r hd
      exact ⟨u, rfl, (hadopts.children u d).mpr (Or.inl hmem)⟩

/-! ### Tables that go away -/

variable {roots : List Ref}

theorem ownerOf_sweep (st : Store) (roots : List Ref) (c : Child) :
    (st.sweep roots).ownerOf c =
      if (st.aliveFrom roots).contains c.ref then
        (st.ownerOf c).filter (st.aliveFrom roots).contains
      else none := by
  cases c with
  | field f =>
    rw [ownerOf, field_sweep, apply_ite Field.owner]
    rfl
  | index i =>
    rw [ownerOf, index_sweep, apply_ite Index.owner]
    rfl
  | constraint d =>
    rw [ownerOf, constraint_sweep, apply_ite Constraint.owner]
    rfl

theorem children_sweep (st : Store) (roots : List Ref) (t : TableId) :
    (st.sweep roots).children t =
      if (st.aliveFrom roots).contains (.table t) then st.children t else [] := by
  rw [children, table_sweep]
  split <;> rfl

/-- An owner that lives keeps what it owns, and one that does not owns nothing. -/
theorem Owned.sweep (h : st.Owned) (roots : List Ref) : (st.sweep roots).Owned := by
  intro c r hc
  rw [ownerOf_sweep] at hc
  split at hc
  · obtain ⟨howner, halive⟩ := Option.filter_eq_some_iff.mp hc
    obtain ⟨t, rfl, hmem⟩ := h c r howner
    refine ⟨t, rfl, ?_⟩
    rw [children_sweep, if_pos halive]
    exact hmem
  · cases hc

/-- A child that outlives its table belongs to nobody. -/
theorem ownerOf_sweep_of_dead (h : st.ownerOf c = some (.table t))
    (hdead : Ref.table t ∉ st.aliveFrom roots) : (st.sweep roots).ownerOf c = none := by
  have hgone : (some (Ref.table t)).filter (st.aliveFrom roots).contains = none := by
    simp [hdead]
  rw [ownerOf_sweep, h, hgone, ite_self]

end Store

/-- **In every history, owners list what they own.** -/
theorem owned_of_reachable {st : Store} (h : Reachable st) : st.Owned := by
  refine h.of_changes ?_ Store.Owned.of_change fun roots hst => hst.sweep roots
  intro c r hc
  cases c <;> cases hc

/-! ### Adding a child that is there -/

namespace Edit

variable {st : Store} {t u : TableId}

/-- Whether an existing child can be added depends on whom it belongs to. -/
theorem outcome_resolveChild_object {ι : Type} {kind : ChildKind} {make : Params → Edit ι}
    {find? : Value → Option ι} {name : Store → ι → Value} {owner : Store → ι → Option Ref}
    {r : Ref} {i : ι} (hi : find? (.object r) = some i) (st : Store) (t : TableId) :
    outcome (resolveChild kind make find? name owner t (.object r) []) st =
      match checkOwner st t kind (name st i) (owner st i) with
      | .error e => (.error e, st)
      | .ok () => (.ok i, st) := by
  have hresolve : resolveChild kind make find? name owner t (.object r) [] = do
      ask fun st => checkOwner st t kind (name st i) (owner st i)
      return i := by
    rw [resolveChild]
    · simp [hi]
    · exact fun hnull => by cases hnull
  rw [hresolve, outcome_bind, outcome_ask]
  rcases checkOwner st t kind (name st i) (owner st i) with e | u <;> rfl

/-- Whether a table can add a child as far as names are concerned. -/
def mayPlace (st : Store) (t : TableId) : Child → Except ModelError Unit
  | .field f => mayAddField st t f
  | .index _ | .constraint _ => .ok ()

/-- The store in which a table has one more child. -/
def withChild (st : Store) (t : TableId) : Child → Store
  | .field f => withField st t f
  | .index i => withIndex st t i
  | .constraint c => withConstraint st t c

/-- What adding an existing child does: only a table that may own it and has a place for it gets
it. -/
theorem outcome_addTo (st : Store) (t : TableId) (c : Child) :
    outcome (c.addTo t).run st =
      match checkOwner st t c.kind (nameOf st c.ref) (st.ownerOf c) with
      | .error e => (.error e, st)
      | .ok () =>
        match mayPlace st t c with
        | .error e => (.error e, st)
        | .ok () => (.ok ⟨⟩, withChild st t c) := by
  cases c with
  | field f =>
    have hfind : fieldOf? (.object (.field f)) = some f := rfl
    rw [Child.addTo, Call.run, outcome_discard, outcome_addField, resolveField_eq,
      outcome_resolveChild_object hfind]
    simp only [Child.kind, Child.ref, nameOf, Store.ownerOf, mayPlace, withChild]
    rcases checkOwner st t .field (st.field f).name (st.field f).owner with e | u
    · rfl
    · dsimp only
      rcases mayAddField st t f with e | u <;> rfl
  | index i =>
    -- every table has a place for an index, and for a constraint
    have hfind : indexOf? (.object (.index i)) = some i := rfl
    rw [Child.addTo, Call.run, outcome_discard, outcome_addIndex, resolveIndex_eq,
      outcome_resolveChild_object hfind]
    simp only [Child.kind, Child.ref, nameOf, Store.ownerOf]
    rcases checkOwner st t .index (st.index i).name (st.index i).owner with e | u <;> rfl
  | constraint c =>
    have hfind : constraintOf? (.object (.constraint c)) = some c := rfl
    rw [Child.addTo, Call.run, outcome_discard, outcome_addConstraint, resolveConstraint_eq,
      outcome_resolveChild_object hfind]
    simp only [Child.kind, Child.ref, nameOf, Store.ownerOf]
    rcases checkOwner st t .constraint (st.constraint c).name (st.constraint c).owner
      with e | u <;> rfl

theorem adopts_withChild (st : Store) (t : TableId) (c : Child) :
    st.Adopts (withChild st t c) t c := by
  cases c with
  | field f => exact Store.adopts_withField t f
  | index i => exact Store.adopts_withIndex t i
  | constraint c => exact Store.adopts_withConstraint t c

theorem table_withChild_of_ne {st : Store} {t u : TableId} (hu : u ≠ t) (c : Child) :
    (withChild st t c).table u = st.table u := by
  cases c <;> exact Store.table_setTable_of_ne _ hu _

/-- A table that gets a child keeps its name, its place and its options. -/
theorem head_withChild (st : Store) (t : TableId) (c : Child) :
    ((withChild st t c).table t).name = (st.table t).name ∧
      ((withChild st t c).table t).owner = (st.table t).owner ∧
      ((withChild st t c).table t).options = (st.table t).options := by
  cases c <;> simp [withChild, withField, withIndex, withConstraint]

/-- A child of another table is refused, and nothing changes. -/
theorem outcome_addTo_of_owned {c : Child} (h : st.ownerOf c = some (.table t)) (hne : t ≠ u) :
    outcome (c.addTo u).run st =
      (.error (.childInvalid (.owned c.kind (st.plain (nameOf st c.ref))
        (st.plain (st.table t).name))), st) := by
  have hother : Ref.table t ≠ Ref.table u := fun he => hne (Ref.table.inj he)
  rw [outcome_addTo, h, checkOwner, if_neg hother]
  rfl

/-- A child of nobody is added by every table that has a place for it. -/
theorem outcome_addTo_of_free {c : Child} (h : st.ownerOf c = none)
    (hplace : mayPlace st t c = .ok ()) :
    outcome (c.addTo t).run st = (.ok ⟨⟩, withChild st t c) := by
  rw [outcome_addTo, h, checkOwner, hplace]

end Edit

namespace Store

variable {st : Store} {t u : TableId} {c : Child} {roots : List Ref}

/-- A child that was in a table has a name that it can be listed under, and keeps it for as long as
it lives. -/
theorem Coherent.mayPlace_sweep (h : st.Coherent) (hc : c ∈ st.children t)
    (halive : c.ref ∈ st.aliveFrom roots) (hplace : (st.sweep roots).HasPlaceFor u c) :
    Edit.mayPlace (st.sweep roots) u c = .ok () := by
  cases c with
  | field f =>
    obtain ⟨e, he, rfl⟩ := field_mem_children.mp hc
    obtain ⟨-, hname, htruthy⟩ := (h.table t).field e he
    have hsame : ((st.sweep roots).field e.2).name = (st.field e.2).name := by
      rw [field_sweep, if_pos (by exact List.contains_iff_mem.mpr halive)]
    obtain ⟨n, hn, -⟩ := (h.fieldTidy e.2).name
    refine Edit.mayAddField_eq_ok_iff.mpr ⟨?_, ?_, hplace⟩
    · rw [hsame, hname]
      exact htruthy
    · rw [hsame, hn]
      rfl
  | index i => rfl
  | constraint d => rfl

end Store

/-! ### Exclusive ownership -/

/-- **A table owns its children exclusively.**  Whatever calls were made and whatever went away, a
child is listed by one table at most; the table that lists it is the one that it points to, and a
child that no table lists points to none.  Another table may not add it, and it stays where it is.
As soon as its table has gone away, any other table that has a place for it can take it over. -/
theorem table_owns_children {st : Store} (h : Reachable st) (c : Child) :
    (∀ t u, c ∈ st.children t → c ∈ st.children u → t = u) ∧
    (∀ t, c ∈ st.children t ↔ st.ownerOf c = some (.table t)) ∧
    ((∀ t, c ∉ st.children t) → st.ownerOf c = none) ∧
    (∀ t u, c ∈ st.children t → t ≠ u →
      outcome (c.addTo u).run st =
        (.error (.childInvalid (.owned c.kind (st.plain (nameOf st c.ref))
          (st.plain (st.table t).name))), st)) ∧
    ∀ roots t u, c ∈ st.children t → Ref.table t ∉ st.aliveFrom roots →
      c.ref ∈ st.aliveFrom roots → (st.sweep roots).HasPlaceFor u c →
      (st.sweep roots).ownerOf c = none ∧
        ∃ st', outcome (c.addTo u).run (st.sweep roots) = (.ok ⟨⟩, st') ∧ c ∈ st'.children u ∧
          st'.ownerOf c = some (.table u) := by
  have hcoherent := coherent_of_reachable h
  have howned := owned_of_reachable h
  have howner : ∀ t, c ∈ st.children t → st.ownerOf c = some (.table t) := fun t hc =>
    hcoherent.ownerOf_of_mem hc
  refine ⟨?_, ?_, ?_, ?_, ?_⟩
  · intro t u ht hu
    have heq := (howner t ht).symm.trans (howner u hu)
    exact Ref.table.inj (Option.some.inj heq)
  · refine fun t => ⟨howner t, fun ho => ?_⟩
    obtain ⟨u, hu, hmem⟩ := howned c _ ho
    cases hu
    exact hmem
  · intro hnone
    rcases ho : st.ownerOf c with _ | r
    · rfl
    · obtain ⟨t, -, hmem⟩ := howned c r ho
      exact absurd hmem (hnone t)
  · intro t u ht hne
    exact Edit.outcome_addTo_of_owned (howner t ht) hne
  · intro roots t u ht hdead halive hplace
    have hfree := Store.ownerOf_sweep_of_dead (howner t ht) hdead
    have hmay := hcoherent.mayPlace_sweep ht halive hplace
    have hadopts := Edit.adopts_withChild (st.sweep roots) u c
    exact ⟨hfree, _, Edit.outcome_addTo_of_free hfree hmay,
      (hadopts.children u c).mpr (Or.inr ⟨rfl, rfl⟩), hadopts.owner_self⟩

/-- A field of one table is refused by another one, and taken over by it when the first one is
gone. -/
theorem table_owns_children_of_moved_field :
    let st := history [.makeTable [("name", .text "users")], .makeTable [("name", .text "people")],
      .addField ⟨0⟩ .null [("name", .text "id"), ("data_type", .text "integer")]]
    let c := Child.field ⟨0⟩
    let roots := [Ref.table ⟨1⟩, Ref.field ⟨0⟩]
    Reachable st ∧ c ∈ st.children ⟨0⟩ ∧ st.ownerOf c = some (.table ⟨0⟩) ∧
      (outcome (c.addTo ⟨1⟩).run st).2 = st ∧
      ∃ st', outcome (c.addTo ⟨1⟩).run (st.sweep roots) = (.ok ⟨⟩, st') ∧
        c ∈ st'.children ⟨1⟩ := by
  intro st c roots
  have hst : Reachable st := reachable_history _
  obtain ⟨-, howner, -, hrefused, hmoved⟩ := table_owns_children hst c
  have hc : c ∈ st.children ⟨0⟩ := by decide
  have hplace : (st.sweep roots).HasPlaceFor ⟨1⟩ c := by
    show ((st.sweep roots).table ⟨1⟩).field? ((st.sweep roots).field ⟨0⟩).name = none
    decide
  obtain ⟨-, st', hadd, hmem, -⟩ := hmoved roots ⟨0⟩ ⟨1⟩ hc (by decide) (by decide) hplace
  refine ⟨hst, hc, (howner ⟨0⟩).mp hc, ?_, st', hadd, hmem⟩
  rw [hrefused ⟨0⟩ ⟨1⟩ hc (by decide)]

end DbSchema
