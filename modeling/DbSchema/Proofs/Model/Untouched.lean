import DbSchema.Proofs.Model.History
import DbSchema.Proofs.Model.Adding
import DbSchema.Proofs.Model.Naming
import DbSchema.Model.Validity

/-!
# Lists of children that operations leave alone

Naming a table, registering and dropping it, checking it and making other objects do not change
what any table lists, and adding a child of one kind does not change the lists of the other kinds.
It is the same argument for each of the lists, so what is read of a table is a parameter here.

## Main definitions

* `ReadsChildren p` — what `p` reads of a table depends on its lists of children only.
* `Edit.KeepsLists p e` — whatever comes of the operation, `p` reads of every table what it read
  before.
* `Call.Adds c` — the call may add a child to a table.

## Main results

* `Edit.keepsLists_addField`, `Edit.keepsLists_addIndex`, `Edit.keepsLists_addConstraint`,
  `Edit.keepsLists_primaryKey` — adding children of one kind leaves the other lists alone.
* `Call.keepsLists` — a call that adds no child leaves all lists alone.
-/

namespace DbSchema

variable {α β γ : Type} {p : Table → γ}

/-- What is read of a table depends on nothing but its lists of children. -/
def ReadsChildren (p : Table → γ) : Prop :=
  ∀ x y : Table, x.fields = y.fields → x.indices = y.indices → x.constraints = y.constraints →
    p x = p y

theorem readsChildren_fields : ReadsChildren Table.fields := fun _ _ h _ _ => h

theorem readsChildren_indices : ReadsChildren Table.indices := fun _ _ _ h _ => h

theorem readsChildren_constraints : ReadsChildren Table.constraints := fun _ _ _ _ h => h

/-- A change of one table that is not read leaves what is read of all tables. -/
theorem Store.read_setTable (st : Store) {t : TableId} {x : Table} (hx : p x = p (st.table t))
    (u : TableId) : p ((st.setTable t x).table u) = p (st.table u) := by
  by_cases hu : u = t
  · rw [hu, table_setTable_self, hx]
  · rw [table_setTable_of_ne st hu]

namespace Edit

/-- Whether the operation is refused or not, what is read of every table is what it was. -/
def KeepsLists (p : Table → γ) (e : Edit α) : Prop :=
  ∀ (st : Store) (t : TableId), p ((outcome e st).2.table t) = p (st.table t)

namespace KeepsLists

variable {e e' : Edit α} {f : α → Edit β}

theorem pure (a : α) : KeepsLists p (Pure.pure a) := fun _ _ => rfl

theorem throw (x : ModelError) : KeepsLists p (MonadExcept.throw x : Edit α) := fun _ _ => rfl

theorem ask (question : Store → Except ModelError α) : KeepsLists p (Edit.ask question) := by
  intro st t
  rw [outcome_ask]

theorem bind (he : KeepsLists p e) (hf : ∀ a, KeepsLists p (f a)) : KeepsLists p (e >>= f) := by
  intro st t
  have h := he st t
  rw [outcome_bind]
  rcases ho : outcome e st with ⟨x | a, st'⟩ <;> rw [ho] at h
  · exact h
  · exact (hf a st' t).trans h

theorem get_bind {f : Store → Edit β} (hf : ∀ st, KeepsLists p (f st)) :
    KeepsLists p (get >>= f) := bind (fun _ _ => rfl) hf

theorem discard (he : KeepsLists p e) : KeepsLists p (Functor.discard e) := by
  intro st t
  rw [show outcome (Functor.discard e) st = _ from outcome_discard e st]
  exact he st t

theorem ite {c : Prop} [Decidable c] (he : KeepsLists p e) (he' : KeepsLists p e') :
    KeepsLists p (if c then e else e') := by
  split
  · exact he
  · exact he'

end KeepsLists

theorem keepsLists_onTable (t : TableId) {f : Table → Table} (h : ∀ x, p (f x) = p x) :
    KeepsLists p (onTable t f) := fun st => st.read_setTable (h _)

/-! ### Naming and registering -/

theorem keepsLists_rekey (s : SchemaId) (t : TableId) (old : Value) :
    KeepsLists p (rekey s t old) := by
  intro st u
  rw [outcome_rekey]
  rcases lookupTable st s old with e | v
  · rfl
  · dsimp only
    split <;> rfl

section

variable (hp : ReadsChildren p)
include hp

theorem keepsLists_setName (t : TableId) (name : Value) : KeepsLists p (setName t name) := by
  intro st u
  rcases hmay : mayTake st t name with e | v
  · rw [outcome_setName_of_error st t name hmay]
  · rw [outcome_setName_of_ok st t name hmay]
    have hname : p ((named st t name).table u) = p (st.table u) :=
      st.read_setTable (by exact hp _ _ rfl rfl rfl) u
    dsimp only
    split
    · exact hname
    · split
      · exact (keepsLists_rekey _ t _ _ u).trans hname
      · exact hname

theorem keepsLists_setOwner (t : TableId) (schema : Value) : KeepsLists p (setOwner t schema) := by
  unfold setOwner
  split
  · exact .bind (keepsLists_onTable t fun _ => hp _ _ rfl rfl rfl) fun _ => .pure _
  · exact .throw _

/-- A new table is in a cell that was not in use, where it lists nothing. -/
theorem keepsLists_newTable (spec : TableSpec) : KeepsLists p (newTable spec) := by
  have hcell : KeepsLists p (addTableCell {}) := fun st => by
    refine st.read_setTable ?_
    rw [st.table_of_size_le (t := ⟨st.tables.size⟩) le_rfl]
    rfl
  refine .bind hcell fun t => ?_
  have hname : KeepsLists p (do
      if spec.name.truthy then Functor.discard (setName t spec.name)
      return t : Edit TableId) :=
    .ite (.bind (keepsLists_setName hp t spec.name).discard fun _ => .pure t) (.pure t)
  dsimp only
  split
  · exact hname
  · exact .bind (keepsLists_setOwner hp t _).discard fun _ => hname

theorem keepsLists_newTableOf (params : Params) : KeepsLists p (newTableOf params) := by
  rw [newTableOf]
  split
  · exact keepsLists_newTable hp _
  · exact .throw _

theorem keepsLists_register (s : SchemaId) (t : TableId) : KeepsLists p (register s t) := by
  intro st
  rw [outcome_register]
  rcases mayList st s t with e | u
  · exact fun _ => rfl
  · exact st.read_setTable (hp _ _ rfl rfl rfl)

theorem keepsLists_addTable (s : SchemaId) (table : Value) (params : Params) :
    KeepsLists p (addTable s table params) := by
  unfold addTable
  split
  · exact .ite (.throw _) (.bind (keepsLists_newTableOf hp _) (keepsLists_register hp s))
  · refine .ite (.throw _) ?_
    split
    · exact keepsLists_register hp s _
    · exact .throw _

theorem keepsLists_dropTable (s : SchemaId) (name : Value) : KeepsLists p (dropTable s name) := by
  intro st
  rw [outcome_dropTable]
  split
  · exact fun _ => rfl
  · rcases lookupTable st s name with e | _ | t
    · exact fun _ => rfl
    · exact fun _ => rfl
    · exact st.read_setTable (hp _ _ rfl rfl rfl)

/-! ### Names and verdicts -/

theorem keepsLists_addOptions (t : TableId) (values : List Value) :
    KeepsLists p (addOptions t values) := by
  refine .bind (fun st u => by rw [outcome_names]) fun _ => ?_
  exact .bind (keepsLists_onTable t fun _ => hp _ _ rfl rfl rfl) fun _ => .get_bind fun _ => .pure _

theorem keepsLists_isValid (r : Ref) : KeepsLists p (isValid r) := by
  have hnote : ∀ v, KeepsLists p (note errorNote v r) := fun v => by
    cases r with
    | table t => exact keepsLists_onTable t fun _ => hp _ _ rfl rfl rfl
    | _ => exact fun _ _ => rfl
  refine .get_bind fun st => ?_
  split
  · exact .bind (hnote _) fun _ => .pure true
  · split
    · exact .throw _
    · exact .bind (hnote _) fun _ => .pure false

end

theorem keepsLists_names (values : List Value) : KeepsLists p (names values) := by
  intro st t
  rw [outcome_names]

theorem keepsLists_extendFields (c : ConstraintId) {e : Edit (List String)} (he : KeepsLists p e) :
    KeepsLists p (extendFields c e) := by
  refine .get_bind fun st => ?_
  split
  · exact .bind he fun names => fun _ _ => rfl
  · exact .throw _

theorem keepsLists_addConstraintFields (c : ConstraintId) (values : List Value) :
    KeepsLists p (addConstraintFields c values) :=
  .bind (keepsLists_extendFields c (keepsLists_names values)) fun _ => .get_bind fun _ => .pure _

/-! ### Making and adding children -/

theorem keepsLists_newField (params : Params) : KeepsLists p (newField params) := by
  intro st t
  rw [outcome_newField]
  rcases FieldSpec.ofParams params with e | spec <;> rfl

theorem keepsLists_newIndex (params : Params) : KeepsLists p (newIndex params) := by
  intro st t
  rw [outcome_newIndex]
  rcases IndexSpec.ofParams params with e | spec <;> rfl

theorem keepsLists_newConstraint (params : Params) : KeepsLists p (newConstraint params) := by
  intro st t
  rw [outcome_newConstraint]
  rcases ConstraintSpec.ofParams params with e | spec <;> rfl

/-- Looking for the child to add makes one at most. -/
theorem keepsLists_resolveChild {ι : Type} {kind : ChildKind} {make : Params → Edit ι}
    {find? : Value → Option ι} {name : Store → ι → Value} {owner : Store → ι → Option Ref}
    (t : TableId) (child : Value) {params : Params} (hmake : KeepsLists p (make params)) :
    KeepsLists p (resolveChild kind make find? name owner t child params) := by
  intro st u
  rcases resolveChild_cases st t child params with ⟨e, ho⟩ | ho | ⟨i, -, -, ho⟩ <;> rw [ho]
  exact hmake st u

theorem keepsLists_resolveField (t : TableId) (child : Value) (params : Params) :
    KeepsLists p (resolveField t child params) := by
  rw [resolveField_eq]
  exact keepsLists_resolveChild t child (keepsLists_newField params)

theorem keepsLists_resolveIndex (t : TableId) (child : Value) (params : Params) :
    KeepsLists p (resolveIndex t child params) := by
  rw [resolveIndex_eq]
  exact keepsLists_resolveChild t child (keepsLists_newIndex params)

theorem keepsLists_resolveConstraint (t : TableId) (child : Value) (params : Params) :
    KeepsLists p (resolveConstraint t child params) := by
  rw [resolveConstraint_eq]
  exact keepsLists_resolveChild t child (keepsLists_newConstraint params)

theorem keepsLists_addField (hf : ∀ (x : Table) l n, p { x with fields := l, nextOrder := n } = p x)
    (t : TableId) (child : Value) (params : Params) : KeepsLists p (addField t child params) := by
  intro st u
  have hchild := keepsLists_resolveField (p := p) t child params st u
  rw [outcome_addField]
  rcases ho : outcome (resolveField t child params) st with ⟨e | f, st'⟩ <;> rw [ho] at hchild
  · exact hchild
  · dsimp only
    rcases mayAddField st' t f with e | v
    · exact hchild
    · exact (Store.read_setTable _ (by exact hf _ _ _) u).trans hchild

theorem keepsLists_addIndex (hi : ∀ (x : Table) l, p { x with indices := l } = p x) (t : TableId)
    (child : Value) (params : Params) : KeepsLists p (addIndex t child params) :=
  .bind (keepsLists_resolveIndex t child params) fun i => .bind (fun _ _ => rfl) fun _ =>
    .bind (keepsLists_onTable t fun _ => hi _ _) fun _ => .pure i

section

variable (hc : ∀ (x : Table) l, p { x with constraints := l } = p x)
include hc

theorem keepsLists_addConstraint (t : TableId) (child : Value) (params : Params) :
    KeepsLists p (addConstraint t child params) :=
  .bind (keepsLists_resolveConstraint t child params) fun c => .bind (fun _ _ => rfl) fun _ =>
    .bind (keepsLists_onTable t fun _ => hc _ _) fun _ => .pure c

/-- The fields of keys are extended where they are, so only a new key is seen in a table. -/
theorem keepsLists_primaryKey (t : TableId) (values : List Value) :
    KeepsLists p (primaryKey t values) := by
  have hextend : ∀ names cs, KeepsLists p (extendPrimaryKeys names cs) := by
    intro names cs
    induction cs with
    | nil => exact .pure false
    | cons c r ih =>
      refine .get_bind fun st => .ite ?_ ih
      exact .bind (keepsLists_extendFields c (.pure names)) fun _ =>
        .bind ih.discard fun _ => .pure true
  refine .bind (keepsLists_names values) fun names => ?_
  have hlast : KeepsLists p (ask fun st => primaryKeyOf st t) := .ask _
  refine .ite (.bind (.ask _) fun _ => .get_bind fun st => ?_) hlast
  refine .bind (hextend names _) fun found => .ite ?_ hlast
  exact .bind (keepsLists_addConstraint hc t _ _).discard fun _ => hlast

end

end Edit

/-! ### Calls -/

/-- The call adds a child to a table if it is not refused. -/
def Call.Adds : Call → Prop
  | addField .. | addIndex .. | addConstraint .. | primaryKey .. => True
  | _ => False

/-- **A call that adds no child leaves what all tables list.** -/
theorem Call.keepsLists (hp : ReadsChildren p) {c : Call} (h : ¬ c.Adds) :
    Edit.KeepsLists p c.run := by
  cases c with
  | makeSchema name database => exact fun _ _ => rfl
  | makeTable params => exact (Edit.keepsLists_newTableOf hp params).discard
  | makeField params => exact (Edit.keepsLists_newField params).discard
  | makeIndex params => exact (Edit.keepsLists_newIndex params).discard
  | makeConstraint params => exact (Edit.keepsLists_newConstraint params).discard
  | setName t name => exact (Edit.keepsLists_setName hp t name).discard
  | setOwner t schema => exact (Edit.keepsLists_setOwner hp t schema).discard
  | detach t => exact Edit.keepsLists_onTable t fun _ => hp _ _ rfl rfl rfl
  | addOptions t values => exact (Edit.keepsLists_addOptions hp t values).discard
  | addConstraintFields d values => exact (Edit.keepsLists_addConstraintFields d values).discard
  | addTable s table params => exact (Edit.keepsLists_addTable hp s table params).discard
  | dropTable s name => exact (Edit.keepsLists_dropTable hp s name).discard
  | rekey s t old => exact Edit.keepsLists_rekey s t old
  | isValid r => exact (Edit.keepsLists_isValid hp r).discard
  | _ => exact (h trivial).elim

end DbSchema
