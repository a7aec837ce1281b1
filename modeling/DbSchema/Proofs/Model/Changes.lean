import DbSchema.Model.Validity
import DbSchema.Proofs.Model.Adding
import DbSchema.Proofs.Model.History
import DbSchema.Proofs.Model.Naming
import DbSchema.Proofs.Model.Tidy
import Mathlib.Logic.Relation

/-!
# The changes that calls are made of

Whatever a call is and whether it is refused or not, it changes the store in small steps of few
shapes: an object is made, a table is named, attached, listed, unlisted or moved to another key, a
child or some names are added, or a note is left.  What holds at the start and is kept by each of
these changes holds in every history.

## Main definitions

* `Change st st'` — one such step leads from `st` to `st'`.
* `Changes st st'` — any number of them do.

## Main results

* `Call.changes` — every call is a sequence of changes.
* `Reachable.of_changes` — what every change and every sweep keeps holds of every reachable store.
-/

namespace DbSchema

/-- The store with a note left on an object. -/
def withNote (st : Store) (name : String) (v : Value) : Ref → Store
  | .schema s => st.setSchema s { st.schema s with notes := (st.schema s).notes.put name v }
  | .table t => st.setTable t { st.table t with notes := (st.table t).notes.put name v }
  | .field f => st.setField f { st.field f with notes := (st.field f).notes.put name v }
  | .index i => st.setIndex i { st.index i with notes := (st.index i).notes.put name v }
  | .constraint c =>
    st.setConstraint c { st.constraint c with notes := (st.constraint c).notes.put name v }

/-- One step that leads from a store to another one. -/
inductive Change (st : Store) : Store → Prop
  | newSchema (name database : Value) :
      Change st (st.setSchema ⟨st.schemas.size⟩ { name, database })
  | newTable : Change st (st.setTable ⟨st.tables.size⟩ {})
  | newField {spec : FieldSpec} (h : spec.Tidy) :
      Change st (st.setField ⟨st.fields.size⟩ { toFieldSpec := spec })
  | newIndex {spec : IndexSpec} (h : spec.Tidy) :
      Change st (st.setIndex ⟨st.indices.size⟩ { toIndexSpec := spec })
  | newConstraint {spec : ConstraintSpec} (h : spec.Tidy) :
      Change st (st.setConstraint ⟨st.constraints.size⟩ { toConstraintSpec := spec })
  | name (t : TableId) {name : Value} (h : name.truthy) :
      Change st (st.setTable t { st.table t with name })
  | attach (t : TableId) (owner : Option SchemaId) :
      Change st (st.setTable t { st.table t with owner })
  | list (s : SchemaId) (name : Value) {t : TableId} (h : (st.table t).name.truthy) :
      Change st (st.setSchema s
        { st.schema s with tables := Keyed.put Value.same name t (st.schema s).tables })
  | unlist (s : SchemaId) (name : Value) :
      Change st (st.setSchema s
        { st.schema s with tables := Keyed.remove Value.same name (st.schema s).tables })
  | rekey (s : SchemaId) (old new : Value) :
      Change st (st.setSchema s
        { st.schema s with tables := Edit.renameKey old new (st.schema s).tables })
  | addField {t : TableId} {f : FieldId}
      (h : (st.field f).owner = none ∨ (st.field f).owner = some (.table t))
      (hmay : Edit.mayAddField st t f = .ok ()) : Change st (Edit.withField st t f)
  | addIndex {t : TableId} {i : IndexId}
      (h : (st.index i).owner = none ∨ (st.index i).owner = some (.table t)) :
      Change st (Edit.withIndex st t i)
  | addConstraint {t : TableId} {c : ConstraintId}
      (h : (st.constraint c).owner = none ∨ (st.constraint c).owner = some (.table t)) :
      Change st (Edit.withConstraint st t c)
  | addOptions (t : TableId) {names : List String} (h : Normalised names) :
      Change st (st.setTable t { st.table t with options := (st.table t).options ++ names })
  | addNames (c : ConstraintId) {names : List String} (h : Normalised names) :
      Change st (Edit.withNames st names c)
  | note (name : String) (v : Value) (r : Ref) : Change st (withNote st name v r)

/-- Any number of changes, one after the other. -/
def Changes : Store → Store → Prop := Relation.ReflTransGen Change

namespace Changes

variable {a b c : Store}

theorem refl (a : Store) : Changes a a := Relation.ReflTransGen.refl

theorem single (h : Change a b) : Changes a b := Relation.ReflTransGen.single h

theorem trans (h : Changes a b) (h' : Changes b c) : Changes a c :=
  Relation.ReflTransGen.trans h h'

theorem tail (h : Changes a b) (h' : Change b c) : Changes a c := Relation.ReflTransGen.tail h h'

/-- What every change keeps is kept. -/
theorem keeps {P : Store → Prop} (hP : ∀ {st st'}, Change st st' → P st → P st')
    (h : Changes a b) (ha : P a) : P b := by
  induction h with
  | refl => exact ha
  | tail _ hc ih => exact hP hc ih

end Changes

/-! ### Operations as changes -/

/-- Wherever an operation starts, it is a sequence of changes. -/
def Traced {α : Type} (e : Edit α) : Prop := ∀ st, Changes st (outcome e st).2

namespace Traced

variable {α β : Type} {e : Edit α} {f : α → Edit β}

theorem pure (a : α) : Traced (Pure.pure a) := fun st => .refl st

theorem throw (x : ModelError) : Traced (MonadExcept.throw x : Edit α) := fun st => .refl st

theorem ask (question : Store → Except ModelError α) : Traced (Edit.ask question) := by
  intro st
  rw [Edit.outcome_ask]
  exact .refl st

theorem bind (he : Traced e) (hf : ∀ a, Traced (f a)) : Traced (e >>= f) := by
  intro st
  have h := he st
  rw [outcome_bind]
  rcases ho : outcome e st with ⟨x | a, st'⟩ <;> rw [ho] at h
  · exact h
  · exact h.trans (hf a st')

/-- An operation may look at the store first. -/
theorem get_bind {f : Store → Edit β} (hf : ∀ st, Changes st (outcome (f st) st).2) :
    Traced (get >>= f) := by
  intro st
  rw [outcome_get_bind]
  exact hf st

theorem discard (he : Traced e) : Traced (Functor.discard e) := by
  intro st
  rw [show outcome (Functor.discard e) st = _ from outcome_discard e st]
  exact he st

theorem ite {c : Prop} [Decidable c] {e' : Edit α} (he : Traced e) (he' : Traced e') :
    Traced (if c then e else e') := by
  split
  · exact he
  · exact he'

end Traced

namespace Edit

/-! ### Naming and registering -/

theorem traced_rekey (s : SchemaId) (t : TableId) (old : Value) : Traced (rekey s t old) := by
  intro st
  rw [outcome_rekey]
  rcases lookupTable st s old with e | u
  · exact .refl st
  · dsimp only
    split
    · exact .single (.rekey s old _)
    · exact .refl st

theorem traced_setName (t : TableId) (name : Value) : Traced (setName t name) := by
  intro st
  rcases hmay : mayTake st t name with e | u
  · rw [outcome_setName_of_error st t name hmay]
    exact .refl st
  · rw [outcome_setName_of_ok st t name hmay]
    have hname : Changes st (st.setTable t { st.table t with name }) :=
      .single (.name t (mayTake_eq_ok_iff.mp hmay).1)
    dsimp only
    split
    · exact hname
    · split
      · exact hname.trans (traced_rekey _ t _ _)
      · exact hname

theorem traced_setOwner (t : TableId) (schema : Value) : Traced (setOwner t schema) := by
  unfold setOwner
  split
  · exact Traced.bind (fun st => .single (.attach t (some _))) fun _ => .pure _
  · exact .throw _

theorem traced_detach (t : TableId) : Traced (detach t) := fun _ => .single (.attach t none)

theorem traced_newTable (spec : TableSpec) : Traced (newTable spec) := by
  refine Traced.bind (fun st => .single .newTable) fun t => ?_
  have hname : Traced (do
      if spec.name.truthy then Functor.discard (setName t spec.name)
      return t : Edit TableId) :=
    Traced.ite (Traced.bind (traced_setName t spec.name).discard fun _ => .pure t) (.pure t)
  dsimp only
  split
  · exact hname
  · exact Traced.bind (traced_setOwner t _).discard fun _ => hname

theorem traced_newTableOf (params : Params) : Traced (newTableOf params) := by
  rw [newTableOf]
  split
  · exact traced_newTable _
  · exact .throw _

theorem traced_register (s : SchemaId) (t : TableId) : Traced (register s t) := by
  intro st
  rw [outcome_register]
  rcases hmay : mayList st s t with e | u
  · exact .refl st
  · refine (Changes.single (.attach t (some s))).tail (.list s (st.table t).name ?_)
    rw [Store.table_setTable_self]
    exact truthy_of_mayList hmay

theorem traced_addTable (s : SchemaId) (table : Value) (params : Params) :
    Traced (addTable s table params) := by
  unfold addTable
  split
  · exact Traced.ite (.throw _) (Traced.bind (traced_newTableOf _) (traced_register s))
  · refine Traced.ite (.throw _) ?_
    split
    · exact traced_register s _
    · exact .throw _

theorem traced_dropTable (s : SchemaId) (name : Value) : Traced (dropTable s name) := by
  intro st
  rw [outcome_dropTable]
  split
  · exact .refl st
  · rcases lookupTable st s name with e | _ | t
    · exact .refl st
    · exact .refl st
    · exact (Changes.single (.unlist s name)).tail (.attach t none)

/-! ### Making and adding children -/

theorem traced_newField (params : Params) : Traced (newField params) := by
  intro st
  rw [outcome_newField]
  rcases h : FieldSpec.ofParams params with e | spec
  · exact .refl st
  · exact .single (.newField (FieldSpec.tidy_of_ofParams h))

theorem traced_newIndex (params : Params) : Traced (newIndex params) := by
  intro st
  rw [outcome_newIndex]
  rcases h : IndexSpec.ofParams params with e | spec
  · exact .refl st
  · exact .single (.newIndex (IndexSpec.tidy_of_ofParams h))

theorem traced_newConstraint (params : Params) : Traced (newConstraint params) := by
  intro st
  rw [outcome_newConstraint]
  rcases h : ConstraintSpec.ofParams params with e | spec
  · exact .refl st
  · exact .single (.newConstraint (ConstraintSpec.tidy_of_ofParams h))

/-- The child to add, as changes: it is made, or it is there; then no other table holds it. -/
theorem changes_resolveField (st : Store) (t : TableId) (child : Value) (params : Params) :
    Changes st (outcome (resolveField t child params) st).2 ∧
    ∀ f st', outcome (resolveField t child params) st = (.ok f, st') →
      (st'.field f).owner = none ∨ (st'.field f).owner = some (.table t) := by
  rw [resolveField_eq]
  rcases resolveChild_cases st t child params with ⟨e, h⟩ | h | ⟨i, -, hown, h⟩ <;> rw [h]
  · exact ⟨.refl st, fun f st' h' => by cases h'⟩
  · refine ⟨traced_newField params st, fun f st' h' => Or.inl ?_⟩
    rw [outcome_newField] at h'
    rcases hs : FieldSpec.ofParams params with e | spec <;> rw [hs] at h' <;> cases h'
    rw [Store.field_setField_self]
  · exact ⟨.refl st, fun f st' h' => by cases h'; exact hown⟩

theorem changes_resolveIndex (st : Store) (t : TableId) (child : Value) (params : Params) :
    Changes st (outcome (resolveIndex t child params) st).2 ∧
    ∀ i st', outcome (resolveIndex t child params) st = (.ok i, st') →
      (st'.index i).owner = none ∨ (st'.index i).owner = some (.table t) := by
  rw [resolveIndex_eq]
  rcases resolveChild_cases st t child params with ⟨e, h⟩ | h | ⟨i, -, hown, h⟩ <;> rw [h]
  · exact ⟨.refl st, fun i st' h' => by cases h'⟩
  · refine ⟨traced_newIndex params st, fun i st' h' => Or.inl ?_⟩
    rw [outcome_newIndex] at h'
    rcases hs : IndexSpec.ofParams params with e | spec <;> rw [hs] at h' <;> cases h'
    rw [Store.index_setIndex_self]
  · exact ⟨.refl st, fun j st' h' => by cases h'; exact hown⟩

theorem changes_resolveConstraint (st : Store) (t : TableId) (child : Value) (params : Params) :
    Changes st (outcome (resolveConstraint t child params) st).2 ∧
    ∀ c st', outcome (resolveConstraint t child params) st = (.ok c, st') →
      (st'.constraint c).owner = none ∨ (st'.constraint c).owner = some (.table t) := by
  rw [resolveConstraint_eq]
  rcases resolveChild_cases st t child params with ⟨e, h⟩ | h | ⟨i, -, hown, h⟩ <;> rw [h]
  · exact ⟨.refl st, fun c st' h' => by cases h'⟩
  · refine ⟨traced_newConstraint params st, fun c st' h' => Or.inl ?_⟩
    rw [outcome_newConstraint] at h'
    rcases hs : ConstraintSpec.ofParams params with e | spec <;> rw [hs] at h' <;> cases h'
    rw [Store.constraint_setConstraint_self]
  · exact ⟨.refl st, fun d st' h' => by cases h'; exact hown⟩

theorem traced_addField (t : TableId) (child : Value) (params : Params) :
    Traced (addField t child params) := by
  intro st
  obtain ⟨hch, hown⟩ := changes_resolveField st t child params
  rw [outcome_addField]
  rcases ho : outcome (resolveField t child params) st with ⟨e | f, st'⟩ <;> rw [ho] at hch
  · exact hch
  · rcases hmay : mayAddField st' t f with e | u <;> simp only [hmay]
    · exact hch
    · exact hch.tail (.addField (hown f st' ho) hmay)

theorem traced_addIndex (t : TableId) (child : Value) (params : Params) :
    Traced (addIndex t child params) := by
  intro st
  obtain ⟨hch, hown⟩ := changes_resolveIndex st t child params
  rw [outcome_addIndex]
  rcases ho : outcome (resolveIndex t child params) st with ⟨e | i, st'⟩ <;> rw [ho] at hch
  · exact hch
  · exact hch.tail (.addIndex (hown i st' ho))

theorem traced_addConstraint (t : TableId) (child : Value) (params : Params) :
    Traced (addConstraint t child params) := by
  intro st
  obtain ⟨hch, hown⟩ := changes_resolveConstraint st t child params
  rw [outcome_addConstraint]
  rcases ho : outcome (resolveConstraint t child params) st with ⟨e | c, st'⟩ <;> rw [ho] at hch
  · exact hch
  · exact hch.tail (.addConstraint (hown c st' ho))

/-! ### Adding names -/

theorem traced_addOptions (t : TableId) (values : List Value) : Traced (addOptions t values) := by
  intro st
  rw [outcome_addOptions]
  rcases h : splitNames values with r | names
  · exact .refl st
  · exact .single (.addOptions t (normalised_of_splitNames h))

/-- Appending names to the fields of a constraint; this is refused when they are not in a list. -/
theorem traced_extendFields (c : ConstraintId) {e : Edit (List String)}
    (h : ∀ st, (∃ names, outcome e st = (.ok names, st) ∧ Normalised names) ∨
      ∃ x, outcome e st = (.error x, st)) : Traced (extendFields c e) := by
  refine Traced.get_bind fun st => ?_
  split
  · next items m hl =>
    rw [outcome_bind]
    rcases h st with ⟨names, he, hn⟩ | ⟨x, he⟩ <;> rw [he] <;> dsimp only
    · have hnames : outcome (onConstraint c fun x =>
          { x with fields := .list (items ++ names.map .text) m }) st =
          (.ok ⟨⟩, withNames st names c) := by
        simp [withNames, hl, appendNames]
      rw [hnames]
      exact .single (.addNames c hn)
    · exact .refl st
  · exact .refl st

theorem traced_addConstraintFields (c : ConstraintId) (values : List Value) :
    Traced (addConstraintFields c values) := by
  refine Traced.bind (traced_extendFields c fun st => ?_) fun _ => ?_
  · rw [outcome_names]
    rcases h : splitNames values with r | names
    · exact Or.inr ⟨_, rfl⟩
    · exact Or.inl ⟨names, rfl, normalised_of_splitNames h⟩
  · exact Traced.get_bind fun st => .refl st

theorem traced_extendPrimaryKeys {names : List String} (h : Normalised names)
    (cs : List ConstraintId) : Traced (extendPrimaryKeys names cs) := by
  induction cs with
  | nil => exact .pure false
  | cons c r ih =>
    refine Traced.get_bind fun st => ?_
    have hext : Traced (extendFields c (Pure.pure names)) :=
      traced_extendFields c fun st => Or.inl ⟨names, rfl, h⟩
    rw [outcome_ite]
    split
    · exact Traced.bind hext (fun _ => Traced.bind ih.discard fun _ => .pure true) st
    · exact ih st

theorem traced_primaryKey (t : TableId) (values : List Value) : Traced (primaryKey t values) := by
  intro st
  rw [primaryKey, outcome_bind, outcome_names]
  rcases h : splitNames values with r | names
  · exact .refl st
  · dsimp only [Except.mapError]
    have hlast : Traced (ask fun st => primaryKeyOf st t) := .ask _
    split
    · refine Traced.bind (.ask _) (fun _ => Traced.get_bind fun st' => ?_) st
      refine Traced.bind (traced_extendPrimaryKeys (normalised_of_splitNames h) _)
        (fun found => ?_) st'
      split
      · exact Traced.bind (traced_addConstraint t _ _).discard fun _ => hlast
      · exact hlast
    · exact hlast st

/-! ### Validity -/

theorem traced_isValid (r : Ref) : Traced (isValid r) := by
  have hnote : ∀ v, Traced (note errorNote v r) := fun v st => by
    have : outcome (note errorNote v r) st = (.ok ⟨⟩, withNote st errorNote v r) := by
      cases r <;> rfl
    rw [this]
    exact .single (.note errorNote v r)
  refine Traced.get_bind fun st => ?_
  split
  · exact Traced.bind (hnote _) (fun _ => .pure true) st
  · split
    · exact .refl st
    · exact Traced.bind (hnote _) (fun _ => .pure false) st

end Edit

/-! ### Histories -/

/-- **Every call is a sequence of changes**, whether it is refused or not. -/
theorem Call.changes (c : Call) (st : Store) : Changes st (c.after st) := by
  have h : Traced c.run := by
    cases c with
    | makeSchema name database => exact fun st => .single (.newSchema name database)
    | makeTable params => exact (Edit.traced_newTableOf params).discard
    | makeField params => exact (Edit.traced_newField params).discard
    | makeIndex params => exact (Edit.traced_newIndex params).discard
    | makeConstraint params => exact (Edit.traced_newConstraint params).discard
    | setName t name => exact (Edit.traced_setName t name).discard
    | setOwner t schema => exact (Edit.traced_setOwner t schema).discard
    | detach t => exact Edit.traced_detach t
    | addField t child params => exact (Edit.traced_addField t child params).discard
    | addIndex t child params => exact (Edit.traced_addIndex t child params).discard
    | addConstraint t child params => exact (Edit.traced_addConstraint t child params).discard
    | primaryKey t values => exact (Edit.traced_primaryKey t values).discard
    | addOptions t values => exact (Edit.traced_addOptions t values).discard
    | addConstraintFields c values => exact (Edit.traced_addConstraintFields c values).discard
    | addTable s table params => exact (Edit.traced_addTable s table params).discard
    | dropTable s name => exact (Edit.traced_dropTable s name).discard
    | rekey s t old => exact Edit.traced_rekey s t old
    | isValid r => exact (Edit.traced_isValid r).discard
  exact h st

/-- What holds of the empty store and is kept by every change and whenever objects go away holds in
every history. -/
theorem Reachable.of_changes {P : Store → Prop} (hempty : P Store.empty)
    (hchange : ∀ {st st'}, Change st st' → P st → P st')
    (hsweep : ∀ {st} roots, P st → P (st.sweep roots)) {st : Store} (h : Reachable st) : P st := by
  induction h with
  | empty => exact hempty
  | call _ c ih => exact (c.changes _).keeps hchange ih
  | sweep _ roots ih => exact hsweep roots ih

end DbSchema
