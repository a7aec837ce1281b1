import DbSchema.Model.Lifetime
import DbSchema.Proofs.Outcome

/-!
# Histories of a store

A store comes about by calls of constructors and methods, with whatever arguments and whether they
are refused or not, and by objects that nothing holds any more going away.

## Main definitions

* `Call` — a call of a constructor or a method.
* `Call.run` — the operation that it is.
* `Reachable st` — some history leads to `st`.
* `history calls` — the store that a list of calls leads to.
-/

namespace DbSchema

/-- A call of a constructor or a method, with whatever arguments. -/
inductive Call
  | makeSchema (name database : Value)
  | makeTable (params : Params)
  | makeField (params : Params)
  | makeIndex (params : Params)
  | makeConstraint (params : Params)
  | setName (t : TableId) (name : Value)
  | setOwner (t : TableId) (schema : Value)
  | detach (t : TableId)
  | addField (t : TableId) (child : Value) (params : Params)
  | addIndex (t : TableId) (child : Value) (params : Params)
  | addConstraint (t : TableId) (child : Value) (params : Params)
  | primaryKey (t : TableId) (values : List Value)
  | addOptions (t : TableId) (values : List Value)
  | addConstraintFields (c : ConstraintId) (values : List Value)
  | addTable (s : SchemaId) (table : Value) (params : Params)
  | dropTable (s : SchemaId) (name : Value)
  | rekey (s : SchemaId) (t : TableId) (old : Value)
  | isValid (r : Ref)
deriving Repr, Inhabited

/-- The operation that a call is; what it gives is of no matter here. -/
def Call.run : Call → Edit Unit
  | makeSchema name database => discard (Edit.newSchema name database)
  | makeTable params => discard (Edit.newTableOf params)
  | makeField params => discard (Edit.newField params)
  | makeIndex params => discard (Edit.newIndex params)
  | makeConstraint params => discard (Edit.newConstraint params)
  | setName t name => discard (Edit.setName t name)
  | setOwner t schema => discard (Edit.setOwner t schema)
  | detach t => Edit.detach t
  | addField t child params => discard (Edit.addField t child params)
  | addIndex t child params => discard (Edit.addIndex t child params)
  | addConstraint t child params => discard (Edit.addConstraint t child params)
  | primaryKey t values => discard (Edit.primaryKey t values)
  | addOptions t values => discard (Edit.addOptions t values)
  | addConstraintFields c values => discard (Edit.addConstraintFields c values)
  | addTable s table params => discard (Edit.addTable s table params)
  | dropTable s name => discard (Edit.dropTable s name)
  | rekey s t old => Edit.rekey s t old
  | isValid r => discard (Edit.isValid r)

/-- The store that a call leaves, whether it is refused or not. -/
def Call.after (c : Call) (st : Store) : Store := (outcome c.run st).2

/-- Some history of calls, and of objects going away that the `roots` of the moment do not hold,
leads to the store. -/
inductive Reachable : Store → Prop
  | empty : Reachable Store.empty
  | call {st : Store} (h : Reachable st) (c : Call) : Reachable (c.after st)
  | sweep {st : Store} (h : Reachable st) (roots : List Ref) : Reachable (st.sweep roots)

/-- The store that a list of calls leads to. -/
def history (calls : List Call) : Store := calls.foldl (fun st c => c.after st) Store.empty

theorem reachable_history (calls : List Call) : Reachable (history calls) := by
  have h : ∀ (calls : List Call) (st : Store), Reachable st →
      Reachable (calls.foldl (fun st c => c.after st) st) := by
    intro calls
    induction calls with
    | nil => exact fun _ hst => hst
    | cons c r ih => exact fun _ hst => ih _ (hst.call c)
  exact h calls _ .empty

end DbSchema
