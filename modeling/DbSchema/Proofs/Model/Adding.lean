import DbSchema.Model.Children
import DbSchema.Proofs.Cells
import DbSchema.Proofs.Names
import DbSchema.Proofs.Outcome

/-!
# What adding children does

Making a field, an index or a constraint, adding one to a table, and extending lists of names: for
each of these operations, what it gives and what it leaves, in terms of the store it starts from.

## Main results

* `Edit.outcome_newField`, `Edit.outcome_newIndex`, `Edit.outcome_newConstraint` — a description
  that can be tidied fills a new cell, any other leaves the store alone.
* `Edit.resolveChild_cases` — the child to add is a new one, or an existing one that
  no other table holds, or there is none and the store is as it was.
* `Edit.outcome_addField`, `Edit.outcome_addIndex`, `Edit.outcome_addConstraint` — what adding
  does once there is a child.
* `Edit.outcome_primaryKey` — every primary key of a table gets the names, or a new one.
* `Edit.exists_primaryKeyOf_added` — after that there is a primary key to give.
-/

namespace DbSchema

namespace Edit

variable (st : Store) (t : TableId)

/-! ### New children -/

theorem outcome_newField (params : Params) :
    outcome (newField params) st =
      match FieldSpec.ofParams params with
      | .error e => (.error e, st)
      | .ok spec =>
        (.ok ⟨st.fields.size⟩, st.setField ⟨st.fields.size⟩ { toFieldSpec := spec }) := by
  rw [newField, outcome_bind, outcome_ask]
  rcases FieldSpec.ofParams params with e | spec <;> rfl

theorem outcome_newIndex (params : Params) :
    outcome (newIndex params) st =
      match IndexSpec.ofParams params with
      | .error e => (.error e, st)
      | .ok spec =>
        (.ok ⟨st.indices.size⟩, st.setIndex ⟨st.indices.size⟩ { toIndexSpec := spec }) := by
  rw [newIndex, outcome_bind, outcome_ask]
  rcases IndexSpec.ofParams params with e | spec <;> rfl

theorem outcome_newConstraint (params : Params) :
    outcome (newConstraint params) st =
      match ConstraintSpec.ofParams params with
      | .error e => (.error e, st)
      | .ok spec =>
        (.ok ⟨st.constraints.size⟩,
          st.setConstraint ⟨st.constraints.size⟩ { toConstraintSpec := spec }) := by
  rw [newConstraint, outcome_bind, outcome_ask]
  rcases ConstraintSpec.ofParams params with e | spec <;> rfl

/-! ### The child to add -/

theorem checkOwner_eq_ok_iff {st : Store} {t : TableId} {kind : ChildKind} {name : Value}
    {owner : Option Ref} :
    checkOwner st t kind name owner = .ok () ↔ owner = none ∨ owner = some (.table t) := by
  rcases owner with _ | r
  · simp [checkOwner]
  · by_cases h : r = .table t <;> simp [checkOwner, h]

/-- The child to add, for every kind of child: a new one when no object is given, or the object
itself. -/
def resolveChild {ι : Type} (kind : ChildKind) (make : Params → Edit ι) (find? : Value → Option ι)
    (name : Store → ι → Value) (owner : Store → ι → Option Ref) (t : TableId) (child : Value)
    (params : Params) : Edit ι :=
  match child with
  | .null => make params
  | v => do
    if !params.isEmpty then throw (.wrongType (.childAndParameters kind))
    match find? v with
    | some i =>
      ask fun st => checkOwner st t kind (name st i) (owner st i)
      return i
    | none => throw (.wrongType (.notChild kind v))

/-- The field that a value is. -/
def fieldOf? : Value → Option FieldId
  | .object (.field f) => some f
  | _ => none

/-- The index that a value is. -/
def indexOf? : Value → Option IndexId
  | .object (.index i) => some i
  | _ => none

/-- The constraint that a value is. -/
def constraintOf? : Value → Option ConstraintId
  | .object (.constraint c) => some c
  | _ => none

theorem resolveField_eq (child : Value) (params : Params) :
    resolveField t child params =
      resolveChild .field newField fieldOf? (fun st f => (st.field f).name)
        (fun st f => (st.field f).owner) t child params := by
  cases child with
  | object r => cases r <;> rfl
  | _ => rfl

theorem resolveIndex_eq (child : Value) (params : Params) :
    resolveIndex t child params =
      resolveChild .index newIndex indexOf? (fun st i => (st.index i).name)
        (fun st i => (st.index i).owner) t child params := by
  cases child with
  | object r => cases r <;> rfl
  | _ => rfl

theorem resolveConstraint_eq (child : Value) (params : Params) :
    resolveConstraint t child params =
      resolveChild .constraint newConstraint constraintOf? (fun st c => (st.constraint c).name)
        (fun st c => (st.constraint c).owner) t child params := by
  cases child with
  | object r => cases r <;> rfl
  | _ => rfl

/-- The child to add is a new one, or an existing one that no other table holds; otherwise nothing
changes. -/
theorem resolveChild_cases {ι : Type} {kind : ChildKind} {make : Params → Edit ι}
    {find? : Value → Option ι} {name : Store → ι → Value} {owner : Store → ι → Option Ref}
    (child : Value) (params : Params) :
    (∃ e, outcome (resolveChild kind make find? name owner t child params) st = (.error e, st)) ∨
    outcome (resolveChild kind make find? name owner t child params) st =
      outcome (make params) st ∨
    (∃ i, find? child = some i ∧ (owner st i = none ∨ owner st i = some (.table t)) ∧
      outcome (resolveChild kind make find? name owner t child params) st = (.ok i, st)) := by
  unfold resolveChild
  split
  · exact Or.inr (Or.inl rfl)
  · by_cases hp : params.isEmpty
    · simp only [hp, Bool.not_true, Bool.false_eq_true, if_false]
      rcases hf : find? child with _ | i
      · exact Or.inl ⟨_, rfl⟩
      · rw [outcome_bind, outcome_ask]
        rcases hc : checkOwner st t kind (name st i) (owner st i) with e | u
        · exact Or.inl ⟨e, rfl⟩
        · exact Or.inr (Or.inr ⟨i, rfl, checkOwner_eq_ok_iff.mp hc, rfl⟩)
    · exact Or.inl ⟨.wrongType (.childAndParameters kind), by simp [hp]⟩

/-! ### Adding -/

/-- The store in which a table has one more field. -/
def withField (st : Store) (t : TableId) (f : FieldId) : Store :=
  let x := st.table t
  (st.setField f { st.field f with owner := some (.table t), order := .int x.nextOrder }).setTable t
    { x with nextOrder := x.nextOrder + 1, fields := x.fields ++ [((st.field f).name, f)] }

/-- The store in which a table has one more index. -/
def withIndex (st : Store) (t : TableId) (i : IndexId) : Store :=
  (st.setIndex i { st.index i with owner := some (.table t) }).setTable t
    { st.table t with indices := (st.table t).indices ++ [i] }

/-- The store in which a table has one more constraint. -/
def withConstraint (st : Store) (t : TableId) (c : ConstraintId) : Store :=
  (st.setConstraint c { st.constraint c with owner := some (.table t) }).setTable t
    { st.table t with constraints := (st.table t).constraints ++ [c] }

/-- Whether a table may list one more field under its name. -/
def mayAddField (st : Store) (t : TableId) (f : FieldId) : Except ModelError Unit :=
  let name := (st.field f).name
  if !name.truthy then .error .missingFieldName
  else if !name.hashable then .error (.fault (.unhashable name))
  else if ((st.table t).field? name).isSome then .error (.duplicateField name)
  else .ok ()

theorem mayAddField_eq_ok_iff {st : Store} {t : TableId} {f : FieldId} :
    mayAddField st t f = .ok () ↔
      (st.field f).name.truthy ∧ (st.field f).name.hashable ∧
        (st.table t).field? (st.field f).name = none := by
  rw [mayAddField]
  by_cases h₁ : (st.field f).name.truthy
  · by_cases h₂ : (st.field f).name.hashable
    · rcases h₃ : (st.table t).field? (st.field f).name with _ | g <;> simp [h₁, h₂]
    · simp [h₁, h₂]
  · simp [h₁]

theorem outcome_addField (child : Value) (params : Params) :
    outcome (addField t child params) st =
      match outcome (resolveField t child params) st with
      | (.error e, st') => (.error e, st')
      | (.ok f, st') =>
        match mayAddField st' t f with
        | .error e => (.error e, st')
        | .ok () => (.ok f, withField st' t f) := by
  rw [addField, outcome_bind]
  rcases outcome (resolveField t child params) st with ⟨e | f, st'⟩
  · rfl
  · dsimp only
    rw [outcome_get_bind, mayAddField]
    by_cases h₁ : (st'.field f).name.truthy
    · by_cases h₂ : (st'.field f).name.hashable
      · by_cases h₃ : ((st'.table t).field? (st'.field f).name).isSome
        · simp [h₁, h₂, h₃]
        · simp only [h₁, h₂, h₃, Bool.not_true, Bool.false_eq_true, if_false]
          rw [outcome_bind, outcome_onField]
          rfl
      · simp [h₁, h₂]
    · simp [h₁]

theorem outcome_addIndex (child : Value) (params : Params) :
    outcome (addIndex t child params) st =
      match outcome (resolveIndex t child params) st with
      | (.error e, st') => (.error e, st')
      | (.ok i, st') => (.ok i, withIndex st' t i) := by
  rw [addIndex, outcome_bind]
  rcases outcome (resolveIndex t child params) st with ⟨e | i, st'⟩ <;> rfl

theorem outcome_addConstraint (child : Value) (params : Params) :
    outcome (addConstraint t child params) st =
      match outcome (resolveConstraint t child params) st with
      | (.error e, st') => (.error e, st')
      | (.ok c, st') => (.ok c, withConstraint st' t c) := by
  rw [addConstraint, outcome_bind]
  rcases outcome (resolveConstraint t child params) st with ⟨e | c, st'⟩ <;> rfl

/-! ### Lists of names -/

theorem outcome_names (values : List Value) :
    outcome (names values) st = ((splitNames values).mapError .wrongType, st) := by
  rw [names]
  rcases splitNames values with r | ns <;> rfl

theorem outcome_addOptions (values : List Value) :
    outcome (addOptions t values) st =
      match splitNames values with
      | .error r => (.error (.wrongType r), st)
      | .ok ns =>
        let x := { st.table t with options := (st.table t).options ++ ns }
        (.ok x.options, st.setTable t x) := by
  rw [addOptions, outcome_bind, outcome_names]
  rcases splitNames values with r | ns
  · rfl
  · simp [Except.mapError, outcome_bind, Except.map]

/-- A list with some names after its items. -/
def appendNames (names : List String) : Value → Value
  | .list items m => .list (items ++ names.map .text) m
  | v => v

/-- The store in which a constraint lists some more names. -/
def withNames (st : Store) (names : List String) (c : ConstraintId) : Store :=
  let x := st.constraint c
  st.setConstraint c { x with fields := appendNames names x.fields }

/-- Whether the names of a constraint are in a list, so that there may be more of them. -/
def Extendable (x : Constraint) : Prop := ∃ items m, x.fields = .list items m

theorem outcome_extendFields {c : ConstraintId} (h : Extendable (st.constraint c))
    (values : List Value) :
    outcome (extendFields c (names values)) st =
      match splitNames values with
      | .error r => (.error (.wrongType r), st)
      | .ok ns => (.ok ⟨⟩, withNames st ns c) := by
  obtain ⟨items, m, hl⟩ := h
  rw [extendFields, outcome_get_bind, hl]
  dsimp only
  rw [outcome_bind, outcome_names]
  rcases splitNames values with r | ns
  · rfl
  · simp [Except.mapError, withNames, hl, appendNames]

theorem outcome_extendFields_given {c : ConstraintId} (h : Extendable (st.constraint c))
    (names : List String) :
    outcome (extendFields c (pure names)) st = (.ok ⟨⟩, withNames st names c) := by
  obtain ⟨items, m, hl⟩ := h
  rw [extendFields, outcome_get_bind, hl]
  simp [withNames, hl, appendNames]

theorem outcome_addConstraintFields {c : ConstraintId} (h : Extendable (st.constraint c))
    (values : List Value) :
    outcome (addConstraintFields c values) st =
      match splitNames values with
      | .error r => (.error (.wrongType r), st)
      | .ok ns => (.ok (appendNames ns (st.constraint c).fields), withNames st ns c) := by
  rw [addConstraintFields, outcome_bind, outcome_extendFields st h]
  rcases splitNames values with r | ns
  · rfl
  · simp [withNames, Except.map]

/-! ### The primary key -/

/-- Whether a constraint is a primary key. -/
def isKey (st : Store) (c : ConstraintId) : Bool := (st.constraint c).isOfKind .primaryKey

/-- The store in which every primary key of a list of constraints lists some more names. -/
def withKeyNames (names : List String) (st : Store) (cs : List ConstraintId) : Store :=
  cs.foldl (fun st c => if isKey st c then withNames st names c else st) st

theorem constraint_withNames (names : List String) (c d : ConstraintId) :
    (withNames st names c).constraint d =
      if d = c then { st.constraint d with fields := appendNames names (st.constraint d).fields }
      else st.constraint d := by
  by_cases h : d = c
  · subst h
    simp [withNames]
  · rw [withNames, Store.constraint_setConstraint_of_ne _ h, if_neg h]

theorem extendable_withNames {st : Store} (h : ∀ d, Extendable (st.constraint d))
    (names : List String) (c d : ConstraintId) :
    Extendable ((withNames st names c).constraint d) := by
  rw [constraint_withNames]
  split
  · obtain ⟨items, m, hl⟩ := h d
    exact ⟨items ++ names.map .text, m, by simp [hl, appendNames]⟩
  · exact h d

theorem isKey_withNames (names : List String) (c d : ConstraintId) :
    isKey (withNames st names c) d = isKey st d := by
  rw [isKey, constraint_withNames]
  split <;> rfl

theorem withKeyNames_of_none {names : List String} {cs : List ConstraintId}
    (h : cs.any (isKey st) = false) : withKeyNames names st cs = st := by
  induction cs with
  | nil => rfl
  | cons c r ih =>
    rw [List.any_cons, Bool.or_eq_false_iff] at h
    rw [withKeyNames, List.foldl_cons, h.1, if_neg (by simp)]
    exact ih h.2

theorem outcome_extendPrimaryKeys {st : Store} (h : ∀ d, Extendable (st.constraint d))
    (names : List String) (cs : List ConstraintId) :
    outcome (extendPrimaryKeys names cs) st =
      (.ok (cs.any (isKey st)), withKeyNames names st cs) := by
  induction cs generalizing st with
  | nil => rfl
  | cons c r ih =>
    rw [extendPrimaryKeys, outcome_get_bind, outcome_ite]
    by_cases hk : isKey st c
    · -- a key that got the names leaves the rest of the constraints extendable
      have hr := ih (extendable_withNames h names c)
      rw [if_pos (by exact hk), outcome_bind, outcome_extendFields_given _ (h c)]
      dsimp only
      rw [outcome_bind, outcome_discard, hr]
      simp [Except.map, withKeyNames, hk]
    · rw [if_neg (by exact hk), ih h]
      simp [withKeyNames, hk]

/-- The description of a new primary key over some names. -/
def keySpec (names : List String) : ConstraintSpec :=
  { kind := .constraintKind .primaryKey, fields := .ofTexts names }

theorem ofParams_keySpec {names : List String} (h : Normalised names) :
    ConstraintSpec.ofParams [("type", .constraintKind .primaryKey), ("fields", .ofTexts names)] =
      .ok (keySpec names) := by
  have hn : nameList (.ofTexts names) = .ok names := by
    rw [nameList, Value.ofTexts, Value.ofList, splitNames_texts, normalizeNames_eq_self h]
  change ConstraintSpec.tidy (keySpec names) = _
  rw [ConstraintSpec.tidy]
  simp only [keySpec, hn]
  rfl

/-- The store in which a table has a new primary key over some names. -/
def withKey (st : Store) (t : TableId) (names : List String) : Store :=
  let c : ConstraintId := ⟨st.constraints.size⟩
  withConstraint (st.setConstraint c { toConstraintSpec := keySpec names }) t c

theorem outcome_primaryKey {st : Store} (h : ∀ d, Extendable (st.constraint d))
    (values : List Value) :
    outcome (primaryKey t values) st =
      match splitNames values with
      | .error r => (.error (.wrongType r), st)
      | .ok names =>
        if names.isEmpty then (primaryKeyOf st t, st)
        else
          match checkNames st t (names.map .text) with
          | .error e => (.error e, st)
          | .ok () =>
            let cs := (st.table t).constraints
            let st' := if cs.any (isKey st) then withKeyNames names st cs else withKey st t names
            (primaryKeyOf st' t, st') := by
  rw [primaryKey, outcome_bind, outcome_names]
  rcases hs : splitNames values with r | names
  · rfl
  · dsimp only [Except.mapError]
    by_cases he : names.isEmpty
    · simp [he]
    · simp only [he, Bool.not_false, Bool.false_eq_true, if_true, if_false]
      rw [outcome_bind, outcome_ask]
      rcases checkNames st t (names.map .text) with e | u
      · rfl
      · dsimp only
        rw [outcome_get_bind, outcome_bind, outcome_extendPrimaryKeys h]
        dsimp only
        -- a table with a primary key extends it, any other one gets a new constraint
        by_cases hk : (st.table t).constraints.any (isKey st)
        · simp [hk]
        · simp only [hk, Bool.not_false, Bool.false_eq_true, if_true, if_false]
          rw [withKeyNames_of_none st (by simpa using hk), outcome_bind, outcome_discard,
            outcome_addConstraint, resolveConstraint, outcome_newConstraint,
            ofParams_keySpec (normalised_of_splitNames hs)]
          exact outcome_ask (withKey st t names) (primaryKeyOf · t)

/-- A table with a primary key among its constraints has one to give. -/
theorem exists_primaryKeyOf {st : Store} {t : TableId}
    (h : (st.table t).constraints.any (isKey st)) : ∃ c, primaryKeyOf st t = .ok c := by
  obtain ⟨c, hc, hk⟩ := List.any_eq_true.mp h
  have hs : (firstPrimaryKey? st (st.table t).constraints).isSome :=
    List.find?_isSome.mpr ⟨c, hc, hk⟩
  obtain ⟨d, hd⟩ := Option.isSome_iff_exists.mp hs
  exact ⟨d, by rw [primaryKeyOf, hd]⟩

theorem table_withKeyNames (names : List String) (cs : List ConstraintId) (u : TableId) :
    (withKeyNames names st cs).table u = st.table u := by
  induction cs generalizing st with
  | nil => rfl
  | cons c r ih =>
    rw [withKeyNames, List.foldl_cons]
    refine (ih _).trans ?_
    split <;> rfl

theorem isKey_withKeyNames (names : List String) (cs : List ConstraintId) (d : ConstraintId) :
    isKey (withKeyNames names st cs) d = isKey st d := by
  induction cs generalizing st with
  | nil => rfl
  | cons c r ih =>
    rw [withKeyNames, List.foldl_cons]
    refine (ih _).trans ?_
    split
    · exact isKey_withNames st names c d
    · rfl

/-- Once names were added there is a primary key, so asking for it is not refused. -/
theorem exists_primaryKeyOf_added (names : List String) :
    let cs := (st.table t).constraints
    ∃ c, primaryKeyOf (if cs.any (isKey st) then withKeyNames names st cs else withKey st t names)
      t = .ok c := by
  intro cs
  by_cases hk : cs.any (isKey st)
  · rw [if_pos hk]
    apply exists_primaryKeyOf
    rw [table_withKeyNames, show isKey (withKeyNames names st cs) = isKey st from
      funext (isKey_withKeyNames st names cs)]
    exact hk
  · rw [if_neg hk]
    apply exists_primaryKeyOf
    rw [withKey, withConstraint]
    simp [isKey, Constraint.isOfKind, keySpec]

end Edit

end DbSchema
