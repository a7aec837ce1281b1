import DbSchema.Model.Table
import DbSchema.Proofs.Cells
import DbSchema.Proofs.Outcome

/-!
# What naming and registering a table does

Renaming a table, making one, registering and unregistering one: for each of these operations, what
it gives and what it leaves, in terms of the store it starts from.

## Main definitions

* `mayTake st t name` — whether a table may take a name, or why it may not.

## Main results

* `Edit.outcome_setName`, `Edit.outcome_register`, `Edit.outcome_dropTable` — the operations.
* `Edit.outcome_newTable_alone` — a table made without a schema takes every name.
-/

namespace DbSchema

/-- Whether a table may take a name: the name must not be empty, and the schema that the table
belongs to must not list another one under it. -/
def mayTake (st : Store) (t : TableId) (name : Value) : Except ModelError Unit :=
  if name.truthy then
    match (st.table t).owner with
    | none => .ok ()
    | some s =>
      match lookupTable st s name with
      | .error e => .error e
      | .ok none => .ok ()
      | .ok (some u) => if u = t then .ok () else .error (.nameConflict name)
  else .error .missingTableName

theorem mayTake_eq_ok_iff {st : Store} {t : TableId} {name : Value} :
    mayTake st t name = .ok () ↔
      name.truthy ∧ ∀ s, (st.table t).owner = some s →
        lookupTable st s name = .ok none ∨ lookupTable st s name = .ok (some t) := by
  rw [mayTake]
  by_cases hn : name.truthy
  · rw [if_pos hn]
    rcases (st.table t).owner with _ | s
    · simp [hn]
    · rcases hl : lookupTable st s name with e | _ | u
      · simp [hl]
      · simp [hl, hn]
      · by_cases hu : u = t <;> simp [hl, hn, hu]
  · simp [hn]

namespace Edit

variable (st : Store) (s : SchemaId) (t : TableId) (name : Value)

/-- What is left when a table of a schema got a new name: the schema follows if it lists the table
under the old one. -/
theorem outcome_rekey (old : Value) :
    outcome (rekey s t old) st =
      match lookupTable st s old with
      | .error e => (.error e, st)
      | .ok u =>
        if u = some t then
          (.ok ⟨⟩, st.setSchema s
            { st.schema s with
              tables := renameKey old (st.table t).name (st.schema s).tables })
        else (.ok ⟨⟩, st) := by
  rw [rekey, outcome_bind, outcome_ask]
  rcases lookupTable st s old with e | u
  · rfl
  · change outcome (if u = some t then _ else _) st = _
    rw [outcome_ite]
    rfl

theorem outcome_setName_of_error {e : ModelError} (h : mayTake st t name = .error e) :
    outcome (setName t name) st = (.error e, st) := by
  rw [mayTake] at h
  rw [setName]
  by_cases hn : name.truthy
  · rw [if_pos hn] at h
    simp only [hn, Bool.not_true, Bool.false_eq_true, if_false, outcome_get_bind]
    rcases ho : (st.table t).owner with _ | s <;> rw [ho] at h
    · cases h
    · dsimp only at h ⊢
      rw [outcome_bind, outcome_ask]
      -- only a look-up that fails, or finds another table, refuses the name
      rcases hl : lookupTable st s name with e' | _ | u <;> rw [hl] at h <;> dsimp only at h ⊢
      · cases h; rfl
      · cases h
      · by_cases hu : u = t
        · simp [hu] at h
        · simp only [hu, if_false] at h
          cases h
          simp [hu]
  · simp only [hn, Bool.false_eq_true, if_false] at h
    cases h
    simp [hn]

/-- The store with a table under another name. -/
def named (st : Store) (t : TableId) (name : Value) : Store :=
  st.setTable t { st.table t with name }

@[simp] theorem schema_named (u : SchemaId) : (named st t name).schema u = st.schema u := rfl

@[simp] theorem name_named : ((named st t name).table t).name = name := by simp [named]

/-- What renaming does once the table may take the name: the table has it, and the schema of the
table follows unless the old name is empty. -/
theorem outcome_setName_of_ok (h : mayTake st t name = .ok ()) :
    outcome (setName t name) st =
      match (st.table t).owner with
      | none => (.ok name, named st t name)
      | some s =>
        let old := (st.table t).name
        if old.truthy then
          ((outcome (rekey s t old) (named st t name)).1.map fun _ => name,
            (outcome (rekey s t old) (named st t name)).2)
        else (.ok name, named st t name) := by
  obtain ⟨hn, hl⟩ := mayTake_eq_ok_iff.mp h
  rw [setName]
  simp only [hn, Bool.not_true, Bool.false_eq_true, if_false, outcome_get_bind]
  have hname : outcome (onTable t fun x => { x with name }) st = (.ok ⟨⟩, named st t name) := rfl
  rcases ho : (st.table t).owner with _ | s
  · dsimp only
    rw [outcome_bind_of_ok hname]
    rfl
  · have hl := hl s ho
    -- whether the name is free or the table has it already, what follows is the same
    have hlast : ∀ st' : Store,
        outcome (if (st.table t).name.truthy then do
            rekey s t (st.table t).name
            pure name
          else pure name : Edit Value) st' =
          if (st.table t).name.truthy then
            ((outcome (rekey s t (st.table t).name) st').1.map fun _ => name,
              (outcome (rekey s t (st.table t).name) st').2)
          else (.ok name, st') := by
      intro st'
      rw [outcome_ite, outcome_bind]
      rcases outcome (rekey s t (st.table t).name) st' with ⟨e | u, st''⟩ <;> rfl
    dsimp only
    rw [outcome_bind, outcome_ask]
    rcases hl with hl | hl <;> rw [hl] <;> dsimp only
    · rw [outcome_bind_of_ok hname]
      exact hlast _
    · rw [if_neg (by simp), outcome_bind_of_ok hname]
      exact hlast _

/-! ### Making tables -/

/-- A table made without a schema takes every name that is not empty. -/
theorem outcome_newTable_alone :
    outcome (newTable { name }) st =
      (.ok ⟨st.tables.size⟩,
        st.setTable ⟨st.tables.size⟩ { name := if name.truthy then name else .text "" }) := by
  rw [newTable, outcome_bind, outcome_addTableCell]
  dsimp only
  by_cases hn : name.truthy
  · have hmay : mayTake (st.setTable ⟨st.tables.size⟩ {}) ⟨st.tables.size⟩ name = .ok () := by
      simp [mayTake, hn]
    simp only [hn, if_true]
    rw [outcome_bind, outcome_discard, outcome_setName_of_ok _ _ _ hmay]
    simp [Except.map, named]
  · simp [hn]

/-- The table that is made for a schema, before it is named. -/
def givenTable (st : Store) (s : SchemaId) : Store :=
  st.setTable ⟨st.tables.size⟩ { owner := some s }

theorem outcome_newTable_given :
    outcome (newTable { name, schema := .object (.schema s) }) st =
      if name.truthy then
        ((outcome (setName ⟨st.tables.size⟩ name) (givenTable st s)).1.map fun _ =>
            ⟨st.tables.size⟩,
          (outcome (setName ⟨st.tables.size⟩ name) (givenTable st s)).2)
      else (.ok ⟨st.tables.size⟩, givenTable st s) := by
  -- giving the new table to a schema is never refused
  have hgive : outcome (discard (setOwner ⟨st.tables.size⟩ (.object (.schema s))))
      (st.setTable ⟨st.tables.size⟩ {}) = (.ok ⟨⟩, givenTable st s) := by
    rw [outcome_discard, setOwner, outcome_bind, outcome_onTable]
    simp [givenTable, Except.map]
  rw [newTable, outcome_bind, outcome_addTableCell]
  dsimp only
  rw [outcome_bind, hgive]
  dsimp only
  by_cases hn : name.truthy
  · simp only [hn, if_true]
    rw [outcome_bind, outcome_discard]
    rcases outcome (setName ⟨st.tables.size⟩ name) (givenTable st s) with ⟨e | v, st'⟩ <;> rfl
  · simp [hn]

/-! ### Registering and unregistering -/

/-- Whether a schema may list a table under its present name. -/
def mayList (st : Store) (s : SchemaId) (t : TableId) : Except ModelError Unit :=
  let name := (st.table t).name
  if name.truthy then
    match lookupTable st s name with
    | .error e => .error e
    | .ok none => .ok ()
    | .ok (some u) => if u = t then .ok () else .error (.nameConflict name)
  else .error .missingTableName

theorem truthy_of_mayList {st : Store} {s : SchemaId} {t : TableId}
    (h : mayList st s t = .ok ()) : (st.table t).name.truthy := by
  rw [mayList] at h
  by_contra hn
  rw [if_neg hn] at h
  cases h

/-- The store with a table listed by a schema under its present name and belonging to it. -/
def listed (st : Store) (s : SchemaId) (t : TableId) : Store :=
  (st.setTable t { st.table t with owner := some s }).setSchema s
    { st.schema s with
      tables := Keyed.put Value.same (st.table t).name t (st.schema s).tables }

theorem outcome_register :
    outcome (register s t) st =
      match mayList st s t with
      | .error e => (.error e, st)
      | .ok () => (.ok t, listed st s t) := by
  -- a table is listed in two cases: no other one has the name, or it is listed already
  have hlast : outcome (do
      discard (setOwner t (.object (.schema s)))
      onSchema s fun x => { x with tables := Keyed.put Value.same (st.table t).name t x.tables }
      pure t : Edit TableId) st = (.ok t, listed st s t) := by
    rw [outcome_bind, outcome_discard, setOwner, outcome_bind, outcome_onTable]
    simp [Except.map, listed]
  rw [register, outcome_get_bind, mayList]
  by_cases hn : (st.table t).name.truthy
  · simp only [hn, Bool.not_true, Bool.false_eq_true, if_false, if_true]
    rw [outcome_bind, outcome_ask]
    rcases lookupTable st s (st.table t).name with e | _ | u <;> dsimp only
    · exact hlast
    · by_cases hu : u = t
      · rw [if_neg (by simp [hu]), if_pos hu]
        exact hlast
      · rw [if_pos hu, if_neg hu, outcome_throw_bind]
  · simp [hn]

theorem outcome_addTable_object :
    outcome (addTable s (.object (.table t)) []) st = outcome (register s t) st := rfl

theorem outcome_addTable_null {params : Params} (h : params.any (·.1 == "schema") = false) :
    outcome (addTable s .null params) st =
      match outcome (newTableOf (("schema", .object (.schema s)) :: params)) st with
      | (.error e, st') => (.error e, st')
      | (.ok t, st') => outcome (register s t) st' := by
  rw [addTable, h, if_neg (by simp), outcome_bind]
  rcases outcome (newTableOf (("schema", .object (.schema s)) :: params)) st with ⟨e | t, st'⟩ <;>
    rfl

/-- The store with a table that a schema lists under a name unregistered and on its own. -/
def dropped (st : Store) (s : SchemaId) (name : Value) (t : TableId) : Store :=
  let st' := st.setSchema s
    { st.schema s with tables := Keyed.remove Value.same name (st.schema s).tables }
  st'.setTable t { st.table t with owner := none }

theorem outcome_dropTable :
    outcome (dropTable s name) st =
      if (st.schema s).tables.isEmpty then (.error (.tableNotFound name), st)
      else
        match lookupTable st s name with
        | .error e => (.error e, st)
        | .ok none => (.error (.tableNotFound name), st)
        | .ok (some t) => (.ok t, dropped st s name t) := by
  rw [dropTable, outcome_get_bind]
  by_cases h : (st.schema s).tables.isEmpty
  · simp [h]
  · simp only [h, Bool.false_eq_true, if_false]
    rw [outcome_bind, outcome_ask]
    rcases lookupTable st s name with e | _ | t <;> dsimp only
    · rfl
    · rw [outcome_bind, outcome_onSchema]
      rfl

end Edit

end DbSchema
