import DbSchema.Proofs.Model.Coherence

/-!
# Refused calls change nothing

Every operation checks before it changes anything, so a call that is refused leaves every object
that was there as it was: names, registries, children, lists of names, owners and order numbers.
There is one way around this.  A table may be made with a name that is not a text and that cannot be
a key; once the table belongs to a schema, renaming it stores the new name first and only then fails
to look up the old one.

## Main definitions

* `Stuck st t` — the table `t` belongs to a schema under a name that cannot be a key.
* `Edit.Atomic op st` — when `op` is refused in `st`, the objects of `st` are as they were.

## Main results

* `Call.extends_of_error` — every refused call but the rename of a stuck table is atomic, and that
  one changes nothing but the name.
* `not_atomic_setName` — the rename of a stuck table is not.
-/

namespace DbSchema

/-- A table of a living schema whose present name is not empty and cannot be a key. -/
def Stuck (st : Store) (t : TableId) : Prop :=
  (st.table t).owner.isSome ∧ (st.table t).name.truthy ∧ ¬ (st.table t).name.hashable

theorem exists_lookupTable (st : Store) (s : SchemaId) {name : Value} (h : name.hashable) :
    ∃ u, lookupTable st s name = .ok u := ⟨_, by rw [lookupTable, if_pos h]⟩

namespace Edit

variable {α : Type}

/-- When the operation is refused, every object that was there is as it was. -/
def Atomic (op : Edit α) (st : Store) : Prop :=
  ∀ e st', outcome op st = (.error e, st') → st.Extends st'

namespace Atomic

variable {op : Edit α} {st : Store}

/-- An operation that is refused only before it changes anything. -/
theorem of_unchanged (h : ∀ e st', outcome op st = (.error e, st') → st' = st) :
    Atomic op st := by
  intro e st' ho
  rw [h e st' ho]
  exact .refl st

theorem discard (h : Atomic op st) : Atomic (Functor.discard op) st := by
  intro e st' ho
  rw [show outcome (Functor.discard op) st = _ from outcome_discard op st] at ho
  rcases hop : outcome op st with ⟨x | a, st''⟩ <;> rw [hop] at ho <;> cases ho
  exact h _ _ hop

end Atomic

variable (st : Store) (s : SchemaId) (t : TableId) (name : Value)

/-! ### Naming and registering -/

theorem atomic_rekey (old : Value) : Atomic (rekey s t old) st := by
  refine .of_unchanged fun e st' ho => ?_
  rw [outcome_rekey] at ho
  rcases hl : lookupTable st s old with x | u <;> rw [hl] at ho
  · cases ho
    rfl
  · dsimp only at ho
    split at ho <;> cases ho

/-- What a refused rename leaves: everything as it was, or one stuck table with the new name. -/
theorem setName_refused {st : Store} {t : TableId} {name : Value} {e : ModelError} {st' : Store}
    (h : outcome (setName t name) st = (.error e, st')) :
    st' = st ∨ Stuck st t ∧ st' = named st t name := by
  rcases hmay : mayTake st t name with x | u
  · rw [outcome_setName_of_error st t name hmay] at h
    cases h
    exact Or.inl rfl
  · rw [outcome_setName_of_ok st t name hmay] at h
    dsimp only at h
    split at h
    · cases h
    · next s howner =>
      split at h
      · -- the name is stored by now, so only the look-up under the old one can still fail
        next htruthy =>
        rw [outcome_rekey] at h
        rcases hl : lookupTable (named st t name) s (st.table t).name
          with x | u <;> rw [hl] at h
        · cases h
          refine Or.inr ⟨⟨by rw [howner]; rfl, htruthy, fun hkey => ?_⟩, rfl⟩
          obtain ⟨u, hu⟩ := exists_lookupTable (named st t name) s hkey
          rw [hl] at hu
          cases hu
        · dsimp only at h
          split at h <;> cases h
      · cases h

theorem atomic_setOwner (schema : Value) : Atomic (setOwner t schema) st := by
  refine .of_unchanged fun e st' ho => ?_
  unfold setOwner at ho
  split at ho
  · cases ho
  · cases ho
    rfl

/-- A table without a name is in no registry, so naming it is the whole change. -/
theorem outcome_setName_unnamed {st : Store} {t : TableId} (h : (st.table t).name.truthy = false)
    (name : Value) :
    outcome (setName t name) st =
      match mayTake st t name with
      | .error e => (.error e, st)
      | .ok () => (.ok name, named st t name) := by
  rcases hmay : mayTake st t name with x | u
  · exact outcome_setName_of_error st t name hmay
  · rw [outcome_setName_of_ok st t name hmay]
    dsimp only
    split
    · rfl
    · rw [if_neg (by simp [h])]

/-- Making a table leaves all others alone, whether it can be given to its schema and named or
not. -/
theorem extends_newTable (spec : TableSpec) : st.Extends (outcome (newTable spec) st).2 := by
  have hnew : ∀ x : Table, st.Extends (st.setTable ⟨st.tables.size⟩ x) :=
    fun x => (Store.Extends.refl st).setTable le_rfl x
  obtain ⟨name, schema⟩ := spec
  cases schema with
  | null =>
    rw [outcome_newTable_alone]
    exact hnew _
  | object r =>
    cases r with
    | schema s =>
      rw [outcome_newTable_given]
      split
      · -- the table has no name yet, so naming it cannot fail half-way
        have hunnamed : ((givenTable st s).table ⟨st.tables.size⟩).name.truthy = false := by
          simp [givenTable, Value.truthy]
        rw [outcome_setName_unnamed hunnamed]
        rcases mayTake (givenTable st s) ⟨st.tables.size⟩ name with x | u
        · exact hnew _
        · exact (hnew _).setTable le_rfl _
      · exact hnew _
    | _ => exact hnew {}
  | _ => exact hnew {}

theorem extends_newTableOf (params : Params) : st.Extends (outcome (newTableOf params) st).2 := by
  rw [newTableOf]
  split
  · exact extends_newTable st _
  · exact .refl st

theorem atomic_register : Atomic (register s t) st := by
  refine .of_unchanged fun e st' ho => ?_
  rw [outcome_register] at ho
  rcases hmay : mayList st s t with x | u <;> rw [hmay] at ho <;> cases ho
  rfl

theorem atomic_addTable (table : Value) (params : Params) :
    Atomic (addTable s table params) st := by
  unfold addTable
  split
  · split
    · exact .of_unchanged fun e st' ho => by cases ho; rfl
    · intro e st' ho
      have hnew := extends_newTableOf st (("schema", .object (.schema s)) :: params)
      rw [outcome_bind] at ho
      rcases hmake : outcome (newTableOf (("schema", .object (.schema s)) :: params)) st
        with ⟨x | t, st''⟩ <;> rw [hmake] at ho hnew
      · cases ho
        exact hnew
      · exact hnew.trans (atomic_register st'' s t e st' ho)
  · split
    · exact .of_unchanged fun e st' ho => by cases ho; rfl
    · split
      · exact atomic_register st s _
      · exact .of_unchanged fun e st' ho => by cases ho; rfl

theorem atomic_dropTable : Atomic (dropTable s name) st := by
  refine .of_unchanged fun e st' ho => ?_
  rw [outcome_dropTable] at ho
  split at ho
  · cases ho
    rfl
  · rcases hl : lookupTable st s name with x | _ | t <;> rw [hl] at ho <;> cases ho <;> rfl

/-! ### Children and names -/

theorem atomic_newField (params : Params) : Atomic (newField params) st := by
  refine .of_unchanged fun e st' ho => ?_
  rw [outcome_newField] at ho
  rcases hspec : FieldSpec.ofParams params with x | spec <;> rw [hspec] at ho <;> cases ho
  rfl

theorem atomic_newIndex (params : Params) : Atomic (newIndex params) st := by
  refine .of_unchanged fun e st' ho => ?_
  rw [outcome_newIndex] at ho
  rcases hspec : IndexSpec.ofParams params with x | spec <;> rw [hspec] at ho <;> cases ho
  rfl

theorem atomic_newConstraint (params : Params) : Atomic (newConstraint params) st := by
  refine .of_unchanged fun e st' ho => ?_
  rw [outcome_newConstraint] at ho
  rcases hspec : ConstraintSpec.ofParams params with x | spec <;> rw [hspec] at ho <;> cases ho
  rfl

/-- The child to add is refused before anything changes, and a new one is in a new cell. -/
theorem extends_resolveField (child : Value) (params : Params) :
    st.Extends (outcome (resolveField t child params) st).2 := by
  rw [resolveField_eq]
  rcases resolveChild_cases st t child params with ⟨e, h⟩ | h | ⟨f, -, -, h⟩ <;> rw [h]
  · exact .refl st
  · rw [outcome_newField]
    rcases FieldSpec.ofParams params with e | spec
    · exact .refl st
    · exact (Store.Extends.refl st).setField le_rfl _
  · exact .refl st

theorem atomic_addField (child : Value) (params : Params) :
    Atomic (addField t child params) st := by
  intro e st' ho
  have hres := extends_resolveField st t child params
  rw [outcome_addField] at ho
  rcases h : outcome (resolveField t child params) st with ⟨x | f, st''⟩ <;> rw [h] at ho hres
  · cases ho
    exact hres
  · dsimp only at ho
    rcases hmay : mayAddField st'' t f with x | u <;> rw [hmay] at ho <;> cases ho
    exact hres

theorem atomic_resolveChild {ι : Type} {kind : ChildKind} {make : Params → Edit ι}
    {find? : Value → Option ι} {name : Store → ι → Value} {owner : Store → ι → Option Ref}
    {child : Value} {params : Params} {st : Store} (hmake : Atomic (make params) st) :
    Atomic (resolveChild kind make find? name owner t child params) st := by
  intro e st' ho
  rcases resolveChild_cases st t child params with ⟨x, hc⟩ | hc | ⟨i, -, -, hc⟩ <;> rw [hc] at ho
  · cases ho
    exact .refl st
  · exact hmake e st' ho
  · cases ho

theorem atomic_addIndex (child : Value) (params : Params) :
    Atomic (addIndex t child params) st := by
  intro e st' ho
  rw [outcome_addIndex, resolveIndex_eq] at ho
  split at ho <;> cases ho
  next hres => exact atomic_resolveChild t (atomic_newIndex st params) e st' hres

theorem atomic_addConstraint (child : Value) (params : Params) :
    Atomic (addConstraint t child params) st := by
  intro e st' ho
  rw [outcome_addConstraint, resolveConstraint_eq] at ho
  split at ho <;> cases ho
  next hres => exact atomic_resolveChild t (atomic_newConstraint st params) e st' hres

theorem atomic_addOptions (values : List Value) : Atomic (addOptions t values) st := by
  refine .of_unchanged fun e st' ho => ?_
  rw [outcome_addOptions] at ho
  rcases hs : splitNames values with r | names <;> rw [hs] at ho <;> cases ho
  rfl

theorem atomic_addConstraintFields {c : ConstraintId} (h : Extendable (st.constraint c))
    (values : List Value) : Atomic (addConstraintFields c values) st := by
  refine .of_unchanged fun e st' ho => ?_
  rw [outcome_addConstraintFields st h] at ho
  rcases hs : splitNames values with r | names <;> rw [hs] at ho <;> cases ho
  rfl

/-- Once every name was found, several primary keys may have grown, but then there is one to
give. -/
theorem atomic_primaryKey (h : ∀ c, Extendable (st.constraint c)) (values : List Value) :
    Atomic (primaryKey t values) st := by
  refine .of_unchanged fun e st' ho => ?_
  rw [outcome_primaryKey t h] at ho
  rcases hs : splitNames values with r | names <;> rw [hs] at ho
  · cases ho
    rfl
  · dsimp only at ho
    split at ho
    · exact (congrArg Prod.snd ho).symm
    · rcases hc : checkNames st t (names.map .text) with x | u <;> rw [hc] at ho
      · cases ho
        rfl
      · -- by now constraints may have changed, but the last step finds a primary key
        obtain ⟨c, hkey⟩ := exists_primaryKeyOf_added st t names
        dsimp only at ho
        rw [hkey] at ho
        cases ho

theorem atomic_isValid (r : Ref) : Atomic (isValid r) st := by
  refine .of_unchanged fun e st' ho => ?_
  rw [isValid, outcome_get_bind] at ho
  rcases hc : checkObject st r with x | u <;> rw [hc] at ho <;> dsimp only at ho
  · rcases hf : x.fault? with _ | f <;> rw [hf] at ho <;> dsimp only at ho
    · rw [outcome_bind] at ho
      cases r <;> cases ho
    · cases ho
      rfl
  · rw [outcome_bind] at ho
    cases r <;> cases ho

end Edit

/-! ### Every call -/

/-- In a coherent store the names of every constraint may grow. -/
theorem Store.Coherent.extendable {st : Store} (h : st.Coherent) (c : ConstraintId) :
    Edit.Extendable (st.constraint c) := by
  obtain ⟨names, hnames, -⟩ := (h.constraintTidy c).fields
  exact ⟨names.map .text, .own, hnames⟩

/-- **Refused calls change nothing.**  In every reachable store, a call that is refused leaves every
object that was there as it was, unless it renames a stuck table; and then it changes nothing but
the name of that table. -/
theorem Call.extends_of_error {st : Store} (h : Reachable st) {c : Call} {e : ModelError}
    (he : (outcome c.run st).1 = .error e) :
    st.Extends (c.after st) ∨
    ∃ t name, c = .setName t name ∧ Stuck st t ∧
      c.after st = Edit.named st t name := by
  have hext := (coherent_of_reachable h).extendable
  -- all calls but the naming of a table are atomic by themselves
  have hall : ∀ {op : Edit Unit}, Edit.Atomic op st → (outcome op st).1 = .error e →
      st.Extends (outcome op st).2 := fun hop hop' => hop e _ (Prod.ext hop' rfl)
  cases c with
  | setName t name =>
    rw [Call.run, outcome_discard] at he
    rcases hset : outcome (Edit.setName t name) st with ⟨x | v, st'⟩ <;> rw [hset] at he <;>
      cases he
    have hafter : (Call.setName t name).after st = st' := by
      rw [Call.after, Call.run, outcome_discard, hset]
    rw [hafter]
    rcases Edit.setName_refused hset with rfl | ⟨hstuck, rfl⟩
    · exact Or.inl (.refl _)
    · exact Or.inr ⟨t, name, rfl, hstuck, rfl⟩
  | makeSchema name database => cases he
  | makeTable params =>
    refine Or.inl ?_
    rw [Call.after, Call.run, outcome_discard]
    exact Edit.extends_newTableOf st params
  | makeField params => exact Or.inl (hall (Edit.atomic_newField st params).discard he)
  | makeIndex params => exact Or.inl (hall (Edit.atomic_newIndex st params).discard he)
  | makeConstraint params => exact Or.inl (hall (Edit.atomic_newConstraint st params).discard he)
  | setOwner t schema => exact Or.inl (hall (Edit.atomic_setOwner st t schema).discard he)
  | detach t => cases he
  | addField t child params =>
    exact Or.inl (hall (Edit.atomic_addField st t child params).discard he)
  | addIndex t child params =>
    exact Or.inl (hall (Edit.atomic_addIndex st t child params).discard he)
  | addConstraint t child params =>
    exact Or.inl (hall (Edit.atomic_addConstraint st t child params).discard he)
  | primaryKey t values =>
    exact Or.inl (hall (Edit.atomic_primaryKey st t hext values).discard he)
  | addOptions t values => exact Or.inl (hall (Edit.atomic_addOptions st t values).discard he)
  | addConstraintFields c values =>
    exact Or.inl (hall (Edit.atomic_addConstraintFields st (hext c) values).discard he)
  | addTable s table params =>
    exact Or.inl (hall (Edit.atomic_addTable st s table params).discard he)
  | dropTable s name => exact Or.inl (hall (Edit.atomic_dropTable st s name).discard he)
  | rekey s t old => exact Or.inl (hall (Edit.atomic_rekey st s t old) he)
  | isValid r => exact Or.inl (hall (Edit.atomic_isValid st r).discard he)

/-- A table with two fields and a primary key refuses to extend the key when one of the names is not
the name of a field, and keeps the key as it was. -/
theorem extends_of_unknown_key_field :
    let st := history [.makeTable [("name", .text "users")],
      .addField ⟨0⟩ .null [("name", .text "id"), ("data_type", .text "integer")],
      .addField ⟨0⟩ .null [("name", .text "email"), ("data_type", .text "text")],
      .primaryKey ⟨0⟩ [.text "id"]]
    let c : Call := .primaryKey ⟨0⟩ [.text "email", .text "age"]
    Reachable st ∧ ∃ e, (outcome c.run st).1 = .error e ∧
      (st.Extends (c.after st) ∨
        ∃ t name, c = .setName t name ∧ Stuck st t ∧
          c.after st = Edit.named st t name) := by
  intro st c
  have hrefused : (outcome c.run st).1.toOption.isNone := by decide +kernel
  rcases he : (outcome c.run st).1 with e | u
  · exact ⟨reachable_history _, e, rfl, Call.extends_of_error (reachable_history _) he⟩
  · rw [he] at hrefused
    cases hrefused

/-- The rename of a stuck table is refused with the new name stored: a table is made with a list as
its name, given to a schema, and renamed. -/
theorem not_atomic_setName :
    ¬ ∀ (st : Store) (c : Call) (e : ModelError), Reachable st → (outcome c.run st).1 = .error e →
      st.Extends (c.after st) := by
  intro h
  have hext := h
    (history [.makeSchema (.text "") (.text ""),
      .makeTable [("name", .list [.int 1] .own)], .setOwner ⟨0⟩ (.object (.schema ⟨0⟩))])
    (.setName ⟨0⟩ (.text "b")) (.fault (.unhashable (.list [.int 1] .own)))
    (reachable_history _) rfl
  have hname := congrArg Table.name (hext.table_eq (t := ⟨0⟩) (by decide))
  cases hname

end DbSchema
