import DbSchema.Model.Validity
import DbSchema.Proofs.Model.Adding
import DbSchema.Proofs.Model.History

/-!
# What operations on children leave alone

Making and adding children, extending lists of names and checking objects concern the children of
tables only: every schema lists what it listed, and every table has the name and the owner that it
had.

## Main definitions

* `Store.SameRegistries b st` — the registries of `st` are those of `b`, and so are the names and
  the owners of the tables.
* `Call.Aside c` — the call is none of those that concern registries.

## Main results

* `Call.sameRegistries` — such a call leaves the registries as they were.
-/

namespace DbSchema

namespace Store

/-- Every schema is as it was, apart from its notes, and every table has the name and the owner that
it had. -/
structure SameRegistries (b st : Store) : Prop where
  name : ∀ s, (st.schema s).name = (b.schema s).name
  database : ∀ s, (st.schema s).database = (b.schema s).database
  tables : ∀ s, (st.schema s).tables = (b.schema s).tables
  tableName : ∀ t, (st.table t).name = (b.table t).name
  owner : ∀ t, (st.table t).owner = (b.table t).owner

namespace SameRegistries

variable {b st : Store}

theorem refl (b : Store) : b.SameRegistries b :=
  ⟨fun _ => rfl, fun _ => rfl, fun _ => rfl, fun _ => rfl, fun _ => rfl⟩

theorem setField (h : b.SameRegistries st) (f : FieldId) (x : Field) :
    b.SameRegistries (st.setField f x) := ⟨h.name, h.database, h.tables, h.tableName, h.owner⟩

theorem setIndex (h : b.SameRegistries st) (i : IndexId) (x : Index) :
    b.SameRegistries (st.setIndex i x) := ⟨h.name, h.database, h.tables, h.tableName, h.owner⟩

theorem setConstraint (h : b.SameRegistries st) (c : ConstraintId) (x : Constraint) :
    b.SameRegistries (st.setConstraint c x) :=
  ⟨h.name, h.database, h.tables, h.tableName, h.owner⟩

/-- A change of a table that leaves its name and its owner alone. -/
theorem setTable (h : b.SameRegistries st) {t : TableId} {x : Table}
    (hname : x.name = (st.table t).name) (howner : x.owner = (st.table t).owner) :
    b.SameRegistries (st.setTable t x) := by
  refine ⟨h.name, h.database, h.tables, fun u => ?_, fun u => ?_⟩
  · by_cases hu : u = t
    · rw [hu, table_setTable_self, hname, h.tableName]
    · rw [table_setTable_of_ne st hu, h.tableName]
  · by_cases hu : u = t
    · rw [hu, table_setTable_self, howner, h.owner]
    · rw [table_setTable_of_ne st hu, h.owner]

/-- A change of a schema that leaves all but its notes alone. -/
theorem setSchema (h : b.SameRegistries st) {s : SchemaId} {x : Schema}
    (hname : x.name = (st.schema s).name) (hdatabase : x.database = (st.schema s).database)
    (htables : x.tables = (st.schema s).tables) : b.SameRegistries (st.setSchema s x) := by
  have hself : ∀ u, u = s ∨ (st.setSchema s x).schema u = st.schema u := fun u =>
    (em (u = s)).imp id fun hu => schema_setSchema_of_ne st hu x
  refine ⟨fun u => ?_, fun u => ?_, fun u => ?_, h.tableName, h.owner⟩ <;>
    rcases hself u with rfl | hu
  · rw [schema_setSchema_self, hname, h.name]
  · rw [hu, h.name]
  · rw [schema_setSchema_self, hdatabase, h.database]
  · rw [hu, h.database]
  · rw [schema_setSchema_self, htables, h.tables]
  · rw [hu, h.tables]

end SameRegistries

end Store

namespace Edit

variable {α : Type} (t : TableId)

/-- Whether the operation is refused or not, the registries are as they were. -/
def LeavesRegistries (e : Edit α) : Prop :=
  ∀ b : Store, Ensures b.SameRegistries e (fun _ => b.SameRegistries) b.SameRegistries

theorem LeavesRegistries.sameRegistries {e : Edit α} (h : LeavesRegistries e) (st : Store) :
    st.SameRegistries (outcome e st).2 := Ensures.iff_outcome.mp (h st) st (.refl st)

theorem LeavesRegistries.discard {e : Edit α} (h : LeavesRegistries e) :
    LeavesRegistries (Functor.discard e) := fun b => Ensures.discard (h b)

/-! ### Making and adding children -/

theorem leaves_ask (question : Store → Except ModelError α) : LeavesRegistries (ask question) := by
  refine fun b => Ensures.iff_outcome.mpr fun st h => ?_
  rw [outcome_ask]
  exact h

theorem leaves_newField (params : Params) : LeavesRegistries (newField params) := by
  refine fun b => Ensures.iff_outcome.mpr fun st h => ?_
  rw [outcome_newField]
  rcases FieldSpec.ofParams params with e | spec
  · exact h
  · exact h.setField _ _

theorem leaves_newIndex (params : Params) : LeavesRegistries (newIndex params) := by
  refine fun b => Ensures.iff_outcome.mpr fun st h => ?_
  rw [outcome_newIndex]
  rcases IndexSpec.ofParams params with e | spec
  · exact h
  · exact h.setIndex _ _

theorem leaves_newConstraint (params : Params) : LeavesRegistries (newConstraint params) := by
  refine fun b => Ensures.iff_outcome.mpr fun st h => ?_
  rw [outcome_newConstraint]
  rcases ConstraintSpec.ofParams params with e | spec
  · exact h
  · exact h.setConstraint _ _

/-- Only making a child changes anything while the child to add is looked for. -/
theorem leaves_resolveChild {ι : Type} {kind : ChildKind} {make : Params → Edit ι}
    {find? : Value → Option ι} {name : Store → ι → Value} {owner : Store → ι → Option Ref}
    (child : Value) {params : Params} (hmake : LeavesRegistries (make params)) :
    LeavesRegistries (resolveChild kind make find? name owner t child params) := by
  refine fun b => Ensures.iff_outcome.mpr fun st h => ?_
  rcases resolveChild_cases st t child params with ⟨e, ho⟩ | ho | ⟨i, -, -, ho⟩ <;> rw [ho]
  · exact h
  · exact Ensures.iff_outcome.mp (hmake b) st h
  · exact h

theorem leaves_resolveField (child : Value) (params : Params) :
    LeavesRegistries (resolveField t child params) := by
  rw [resolveField_eq]
  exact leaves_resolveChild t child (leaves_newField params)

theorem leaves_resolveIndex (child : Value) (params : Params) :
    LeavesRegistries (resolveIndex t child params) := by
  rw [resolveIndex_eq]
  exact leaves_resolveChild t child (leaves_newIndex params)

theorem leaves_resolveConstraint (child : Value) (params : Params) :
    LeavesRegistries (resolveConstraint t child params) := by
  rw [resolveConstraint_eq]
  exact leaves_resolveChild t child (leaves_newConstraint params)

theorem leaves_addField (child : Value) (params : Params) :
    LeavesRegistries (addField t child params) := by
  refine fun b => Ensures.iff_outcome.mpr fun st h => ?_
  have hchild := Ensures.iff_outcome.mp (leaves_resolveField t child params b) st h
  rw [outcome_addField]
  rcases ho : outcome (resolveField t child params) st with ⟨e | f, st'⟩ <;> rw [ho] at hchild
  · exact hchild
  · rcases hmay : mayAddField st' t f with e | u <;> simp only [hmay]
    · exact hchild
    · exact (hchild.setField f _).setTable rfl rfl

theorem leaves_addIndex (child : Value) (params : Params) :
    LeavesRegistries (addIndex t child params) := fun b =>
  Ensures.bind (leaves_resolveIndex t child params b) fun i =>
    Ensures.iff_outcome.mpr fun _ h => (h.setIndex i _).setTable rfl rfl

theorem leaves_addConstraint (child : Value) (params : Params) :
    LeavesRegistries (addConstraint t child params) := fun b =>
  Ensures.bind (leaves_resolveConstraint t child params b) fun c =>
    Ensures.iff_outcome.mpr fun _ h => (h.setConstraint c _).setTable rfl rfl

/-! ### Adding names -/

theorem leaves_names (values : List Value) : LeavesRegistries (names values) := by
  refine fun b => Ensures.iff_outcome.mpr fun st h => ?_
  rw [outcome_names]
  exact h

theorem leaves_addOptions (values : List Value) : LeavesRegistries (addOptions t values) := by
  refine fun b => Ensures.iff_outcome.mpr fun st h => ?_
  rw [outcome_addOptions]
  rcases splitNames values with r | names
  · exact h
  · exact h.setTable rfl rfl

theorem leaves_extendFields (c : ConstraintId) {e : Edit (List String)}
    (he : LeavesRegistries e) : LeavesRegistries (extendFields c e) := by
  refine fun b => .get_bind fun st h => ?_
  split
  · refine Ensures.bind (he b) fun names => Ensures.iff_outcome.mpr fun st' h' => ?_
    exact h'.setConstraint c _
  · exact .throw fun _ h => h

theorem leaves_addConstraintFields (c : ConstraintId) (values : List Value) :
    LeavesRegistries (addConstraintFields c values) := fun b =>
  Ensures.bind (leaves_extendFields c (leaves_names values) b) fun _ =>
    .get_bind fun _ _ => .pure fun _ h => h

theorem leaves_extendPrimaryKeys (names : List String) (cs : List ConstraintId) :
    LeavesRegistries (extendPrimaryKeys names cs) := by
  intro b
  induction cs with
  | nil => exact .pure fun _ h => h
  | cons c r ih =>
    have hext := leaves_extendFields c (e := pure names) (fun b => .pure fun _ h => h) b
    have hrest : Ensures b.SameRegistries (Functor.discard (extendPrimaryKeys names r))
        (fun _ => b.SameRegistries) b.SameRegistries := ih.discard
    refine .get_bind fun st h => ?_
    split
    · exact Ensures.bind hext fun _ => Ensures.bind hrest fun _ => .pure fun _ h => h
    · exact ih

theorem leaves_primaryKey (values : List Value) : LeavesRegistries (primaryKey t values) := by
  intro b
  have hlast := leaves_ask (fun st => primaryKeyOf st t) b
  refine Ensures.bind (leaves_names values b) fun names => ?_
  split
  · refine Ensures.bind (leaves_ask _ b) fun _ => .get_bind fun st h => ?_
    refine Ensures.bind (leaves_extendPrimaryKeys names _ b) fun found => ?_
    split
    · exact Ensures.bind ((leaves_addConstraint t _ _).discard b) fun _ => hlast
    · exact hlast
  · exact hlast

/-! ### Checking objects -/

theorem leaves_note (name : String) (v : Value) (r : Ref) : LeavesRegistries (note name v r) := by
  refine fun b => Ensures.iff_outcome.mpr fun st h => ?_
  cases r with
  | schema s => exact h.setSchema rfl rfl rfl
  | table t => exact h.setTable rfl rfl
  | field f => exact h.setField f _
  | index i => exact h.setIndex i _
  | constraint c => exact h.setConstraint c _

theorem leaves_isValid (r : Ref) : LeavesRegistries (isValid r) := by
  refine fun b => .get_bind fun st h => ?_
  split
  · exact Ensures.bind (leaves_note _ _ r b) fun _ => .pure fun _ h => h
  · split
    · exact .throw fun _ h => h
    · exact Ensures.bind (leaves_note _ _ r b) fun _ => .pure fun _ h => h

end Edit

/-! ### Calls -/

/-- The call is about children or about the validity of an object. -/
def Call.Aside : Call → Prop
  | makeField _ | makeIndex _ | makeConstraint _ | addField .. | addIndex .. | addConstraint ..
  | primaryKey .. | addOptions .. | addConstraintFields .. | isValid _ => True
  | makeSchema .. | makeTable _ | setName .. | setOwner .. | detach _ | addTable .. | dropTable ..
  | rekey .. => False

/-- **Calls about children leave the registries as they were**, whether they are refused or not. -/
theorem Call.sameRegistries {c : Call} (h : c.Aside) (st : Store) :
    st.SameRegistries (c.after st) := by
  have hrun : Edit.LeavesRegistries c.run := by
    cases c with
    | makeField params => exact (Edit.leaves_newField params).discard
    | makeIndex params => exact (Edit.leaves_newIndex params).discard
    | makeConstraint params => exact (Edit.leaves_newConstraint params).discard
    | addField t child params => exact (Edit.leaves_addField t child params).discard
    | addIndex t child params => exact (Edit.leaves_addIndex t child params).discard
    | addConstraint t child params => exact (Edit.leaves_addConstraint t child params).discard
    | primaryKey t values => exact (Edit.leaves_primaryKey t values).discard
    | addOptions t values => exact (Edit.leaves_addOptions t values).discard
    | addConstraintFields c values => exact (Edit.leaves_addConstraintFields c values).discard
    | isValid r => exact (Edit.leaves_isValid r).discard
    | _ => exact h.elim
  exact hrun.sameRegistries st

end DbSchema
