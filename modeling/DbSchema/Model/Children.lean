import DbSchema.Model.Display
import DbSchema.Model.Table
import DbSchema.Value.Items
import DbSchema.Value.Order

/-!
# Children of a table

Fields are listed under the names they were added with, and each gets the next order number of its
table.  Indices and constraints are lists.  A child belongs to one living table at a time.

## Main definitions

* `addField`, `addIndex`, `addConstraint` — adding a child, an existing one or a new one.
* `fieldNamed`, `fieldsOf`, `indicesOf`, `constraintsOf` — reading the children.
* `primaryKey` — reads, makes or extends the primary key of a table.
* `addOptions`, `addConstraintFields` — extending lists of names.
-/

namespace DbSchema

/-- The field of a table under a name. -/
def Table.field? (x : Table) (name : Value) : Option FieldId :=
  Keyed.find? Value.same name x.fields

/-- The field of a table under a name, which must not be empty and must be fit for a key. -/
def fieldNamed (st : Store) (t : TableId) (name : Value) : Except ModelError FieldId :=
  if !name.truthy then .error .missingFieldName
  else if !name.hashable then .error (.fault (.unhashable name))
  else
    match (st.table t).field? name with
    | some f => .ok f
    | none => .error (.fieldNotFound name)

/-- A list of fields in ascending order of their numbers; equal numbers keep their order. -/
def byOrder (st : Store) (fields : List FieldId) : Except Fault (List FieldId) :=
  sortBy (fun f g => Value.precedes (st.field f).order (st.field g).order) fields

/-- The fields of a table in the order in which they were added. -/
def orderedFields (st : Store) (t : TableId) : Except ModelError (List FieldId) :=
  (byOrder st ((st.table t).fields.map (·.2))).mapError .fault

/-- The fields of a table in order; a table without fields has none to give. -/
def fieldsOf (st : Store) (t : TableId) : Except ModelError (List FieldId) :=
  if (st.table t).fields.isEmpty then .error .noFields else orderedFields st t

/-- The names of the fields of a table in order. -/
def fieldNames (st : Store) (t : TableId) : Except ModelError (List Value) := do
  return (← orderedFields st t).map fun f => (st.field f).name

/-- The indices of a table in order; a table without indices has none to give. -/
def indicesOf (st : Store) (t : TableId) : Except ModelError (List IndexId) :=
  if (st.table t).indices.isEmpty then .error (.empty .indices) else .ok (st.table t).indices

/-- The constraints of a table in order; a table without constraints has none to give. -/
def constraintsOf (st : Store) (t : TableId) : Except ModelError (List ConstraintId) :=
  if (st.table t).constraints.isEmpty then .error (.empty .constraints)
  else .ok (st.table t).constraints

/-- Whether a constraint is of a kind. -/
def Constraint.isOfKind (x : Constraint) (k : ConstraintKind) : Bool :=
  match x.kind with
  | .constraintKind l => l == k
  | _ => false

/-- The first constraint of a list that is a primary key. -/
def firstPrimaryKey? (st : Store) (cs : List ConstraintId) : Option ConstraintId :=
  cs.find? fun c => (st.constraint c).isOfKind .primaryKey

/-- The primary key of a table. -/
def primaryKeyOf (st : Store) (t : TableId) : Except ModelError ConstraintId :=
  match firstPrimaryKey? st (st.table t).constraints with
  | some c => .ok c
  | none => .error .noPrimaryKey

/-- The fault of an object that does not have the named operation. -/
def lacks {α : Type} (r : Ref) (operation : String) : Except ModelError α :=
  .error (.fault (.noOperation (.object r) operation))

/-- Whether the primary key of a field's table lists the field. -/
def isPrimaryKey (st : Store) (f : FieldId) : Except ModelError Bool :=
  match (st.field f).owner with
  | none => .ok false
  | some (.table t) =>
    match primaryKeyOf st t with
    | .ok c => ((st.constraint c).fields.holds (st.field f).name).mapError .fault
    | .error _ => .ok false
  | some r => lacks r "primary_key"

/-- The type of a field in upper case, for comparing types without regard to case. -/
def Field.normalizedType (x : Field) : Except Fault String :=
  match x.dataType with
  | .text s => .ok (Text.upper s)
  | v => .error (.noOperation v "upper")

/-- The name of an object. -/
def nameOf (st : Store) : Ref → Value
  | .schema s => (st.schema s).name
  | .table t => (st.table t).name
  | .field f => (st.field f).name
  | .index i => (st.index i).name
  | .constraint c => (st.constraint c).name

/-- Refuses a child that belongs to anything but the given table. -/
def checkOwner (st : Store) (t : TableId) (kind : ChildKind) (name : Value) :
    Option Ref → Except ModelError Unit
  | none => .ok ()
  | some r =>
    if r = .table t then .ok ()
    else .error (.childInvalid (.owned kind (st.plain name) (st.plain (nameOf st r))))

/-- Every name of a list must be the name of a field of the table. -/
def checkNames (st : Store) (t : TableId) : List Value → Except ModelError Unit
  | [] => .ok ()
  | name :: r =>
    match fieldNamed st t name with
    | .ok _ => checkNames st t r
    | .error (.fieldNotFound _) => .error (.unknownField name)
    | .error e => .error e

/-- Every name that a value holds must be the name of a field of the owner, which must be a table
unless there is none. -/
def checkFieldsExist (st : Store) (owner : Ref) (names : Value) : Except ModelError Unit :=
  match names.items, owner with
  | .error f, _ => .error (.fault f)
  | .ok [], _ => .ok ()
  | .ok items, .table t => checkNames st t items
  | .ok _, r => lacks r "get_field"

namespace Edit

/-- The names that a list of arguments gives. -/
def names (values : List Value) : Edit (List String) :=
  match splitNames values with
  | .ok names => return names
  | .error r => throw (.wrongType r)

/-- The field to add: a new one when no object is given, or the object itself. -/
def resolveField (t : TableId) (child : Value) (params : Params) : Edit FieldId :=
  match child with
  | .null => newField params
  | v => do
    if !params.isEmpty then throw (.wrongType (.childAndParameters .field))
    match v with
    | .object (.field f) =>
      ask fun st => checkOwner st t .field (st.field f).name (st.field f).owner
      return f
    | v => throw (.wrongType (.notChild .field v))

/-- The index to add: a new one when no object is given, or the object itself. -/
def resolveIndex (t : TableId) (child : Value) (params : Params) : Edit IndexId :=
  match child with
  | .null => newIndex params
  | v => do
    if !params.isEmpty then throw (.wrongType (.childAndParameters .index))
    match v with
    | .object (.index i) =>
      ask fun st => checkOwner st t .index (st.index i).name (st.index i).owner
      return i
    | v => throw (.wrongType (.notChild .index v))

/-- The constraint to add: a new one when no object is given, or the object itself. -/
def resolveConstraint (t : TableId) (child : Value) (params : Params) : Edit ConstraintId :=
  match child with
  | .null => newConstraint params
  | v => do
    if !params.isEmpty then throw (.wrongType (.childAndParameters .constraint))
    match v with
    | .object (.constraint c) =>
      ask fun st => checkOwner st t .constraint (st.constraint c).name (st.constraint c).owner
      return c
    | v => throw (.wrongType (.notChild .constraint v))

/-- Adds a field.  It must have a name that is fit for a key and that no field of the table has. -/
def addField (t : TableId) (child : Value) (params : Params) : Edit FieldId := do
  let f ← resolveField t child params
  let st ← get
  let name := (st.field f).name
  if !name.truthy then throw .missingFieldName
  if !name.hashable then throw (.fault (.unhashable name))
  if ((st.table t).field? name).isSome then throw (.duplicateField name)
  let order := (st.table t).nextOrder
  onField f fun x => { x with owner := some (.table t), order := .int order }
  onTable t fun x => { x with nextOrder := order + 1, fields := x.fields ++ [(name, f)] }
  return f

/-- Adds an index. -/
def addIndex (t : TableId) (child : Value) (params : Params) : Edit IndexId := do
  let i ← resolveIndex t child params
  onIndex i fun x => { x with owner := some (.table t) }
  onTable t fun x => { x with indices := x.indices ++ [i] }
  return i

/-- Adds a constraint. -/
def addConstraint (t : TableId) (child : Value) (params : Params) : Edit ConstraintId := do
  let c ← resolveConstraint t child params
  onConstraint c fun x => { x with owner := some (.table t) }
  onTable t fun x => { x with constraints := x.constraints ++ [c] }
  return c

/-- Appends names to the fields of a constraint, which must be a list; only then are the names
asked for. -/
def extendFields (c : ConstraintId) (names : Edit (List String)) : Edit Unit := do
  match ((← get).constraint c).fields with
  | .list items m =>
    let names ← names
    onConstraint c fun x => { x with fields := .list (items ++ names.map .text) m }
  | v => throw (.fault (.noOperation v "extend"))

/-- Appends names to every primary key of a list of constraints, and tells whether there is
one. -/
def extendPrimaryKeys (names : List String) : List ConstraintId → Edit Bool
  | [] => return false
  | c :: r => do
    if ((← get).constraint c).isOfKind .primaryKey then
      extendFields c (return names)
      discard (extendPrimaryKeys names r)
      return true
    else extendPrimaryKeys names r

/-- Reads the primary key of a table; names that are given are appended to it first, or make a new
one when there is none. -/
def primaryKey (t : TableId) (values : List Value) : Edit ConstraintId := do
  let names ← names values
  if !names.isEmpty then
    ask fun st => checkNames st t (names.map .text)
    let found ← extendPrimaryKeys names ((← get).table t).constraints
    if !found then
      discard (addConstraint t .null
        [("type", .constraintKind .primaryKey), ("fields", .ofTexts names)])
  ask fun st => primaryKeyOf st t

/-- Appends options to a table and gives all of them. -/
def addOptions (t : TableId) (values : List Value) : Edit (List String) := do
  let names ← names values
  onTable t fun x => { x with options := x.options ++ names }
  return ((← get).table t).options

/-- Appends field names to a constraint and gives all of them. -/
def addConstraintFields (c : ConstraintId) (values : List Value) : Edit Value := do
  extendFields c (names values)
  return ((← get).constraint c).fields

end Edit

end DbSchema
