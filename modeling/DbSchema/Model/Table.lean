import DbSchema.Model.Basic

/-!
# Naming tables and registering them

A table may live on its own or belong to a schema.  A schema lists its tables under the names they
had when they were registered or renamed.

## Main definitions

* `lookupTable` — the table that a schema lists under a name.
* `setName`, `setOwner`, `detach` — renaming a table, giving it to a schema and taking it away.
* `newTable` — makes a table.
* `addTable`, `dropTable`, `rekey` — registering a table, unregistering it, and moving it to the
  key of its new name.
-/

namespace DbSchema

/-- The table that a schema lists under a name. -/
def Schema.find? (x : Schema) (name : Value) : Option TableId :=
  Keyed.find? Value.same name x.tables

/-- The table that a schema lists under a name, which must be fit for a key. -/
def lookupTable (st : Store) (s : SchemaId) (name : Value) :
    Except ModelError (Option TableId) :=
  if name.hashable then .ok ((st.schema s).find? name) else .error (.fault (.unhashable name))

/-- The parameters of a table: its name and its schema. -/
structure TableSpec where
  name : Value := .text ""
  schema : Value := .null
deriving Repr, Inhabited

/-- The names of a table's parameters in the order in which they may be given without names. -/
def TableSpec.parameters : List String := ["name", "schema"]

/-- The specification with one parameter filled in. -/
def TableSpec.fill (spec : TableSpec) (name : String) (v : Value) : Option TableSpec :=
  match name with
  | "name" => some { spec with name := v }
  | "schema" => some { spec with schema := v }
  | _ => none

namespace Edit

/-- The entries of a registry with one key replaced, where entries that end up under one key
become one. -/
def renameKey (old new : Value) (entries : List (Value × TableId)) : List (Value × TableId) :=
  Keyed.ofList Value.same (entries.map fun e => (if Value.same e.1 old then new else e.1, e.2))

/-- Moves a table that a schema lists under an old name to the key of its present name. -/
def rekey (s : SchemaId) (t : TableId) (old : Value) : Edit Unit := do
  if (← ask (lookupTable · s old)) = some t then
    let name := ((← get).table t).name
    onSchema s fun x => { x with tables := renameKey old name x.tables }

/-- Renames a table.  The name must not be empty, and no other table of its schema may have it. -/
def setName (t : TableId) (name : Value) : Edit Value := do
  if !name.truthy then throw .missingTableName
  let x := (← get).table t
  if let some s := x.owner then
    if let some u := (← ask (lookupTable · s name)) then
      if u ≠ t then throw (.nameConflict name)
  onTable t fun x => { x with name }
  if let some s := x.owner then
    if x.name.truthy then rekey s t x.name
  return name

/-- Gives a table to a schema. -/
def setOwner (t : TableId) (schema : Value) : Edit Value :=
  match schema with
  | .object (.schema s) => do
    onTable t fun x => { x with owner := some s }
    return schema
  | v => throw (.wrongType (.notSchema v))

/-- Takes a table away from its schema. -/
def detach (t : TableId) : Edit Unit := onTable t fun x => { x with owner := none }

/-- Makes a table: it is given to its schema first and named afterwards. -/
def newTable (spec : TableSpec) : Edit TableId := do
  let t ← addTableCell {}
  match spec.schema with
  | .null => pure ()
  | schema => discard (setOwner t schema)
  if spec.name.truthy then discard (setName t spec.name)
  return t

/-- Makes a table from parameters given by name. -/
def newTableOf (params : Params) : Edit TableId :=
  match fillParams TableSpec.fill {} params with
  | some spec => newTable spec
  | none => throw (.fault .arguments)

/-- Lists a table under its name and makes it belong to the schema. -/
def register (s : SchemaId) (t : TableId) : Edit TableId := do
  let name := ((← get).table t).name
  if !name.truthy then throw .missingTableName
  if let some u := (← ask (lookupTable · s name)) then
    if u ≠ t then throw (.nameConflict name)
  discard (setOwner t (.object (.schema s)))
  onSchema s fun x => { x with tables := Keyed.put Value.same name t x.tables }
  return t

/-- Registers a table, either an existing one or one made from parameters. -/
def addTable (s : SchemaId) (table : Value) (params : Params) : Edit TableId :=
  match table with
  | .null =>
    if params.any (·.1 == "schema") then throw (.fault .arguments)
    else do
      let t ← newTableOf (("schema", .object (.schema s)) :: params)
      register s t
  | v =>
    if !params.isEmpty then throw (.wrongType .tableAndParameters)
    else
      match v with
      | .object (.table t) => register s t
      | v => throw (.wrongType (.notTable v))

/-- Unregisters a table and takes it away from whatever schema it belongs to.  A schema without
tables lists none under any name, also under one that is not fit for a key. -/
def dropTable (s : SchemaId) (name : Value) : Edit TableId := do
  if ((← get).schema s).tables.isEmpty then throw (.tableNotFound name)
  match (← ask (lookupTable · s name)) with
  | some t =>
    onSchema s fun x => { x with tables := Keyed.remove Value.same name x.tables }
    detach t
    return t
  | none => throw (.tableNotFound name)

/-- Makes a schema. -/
def newSchema (name database : Value) : Edit SchemaId := addSchemaCell { name, database }

end Edit

/-- The tables of a schema in order of registration; a schema without tables has none to give. -/
def tablesOf (st : Store) (s : SchemaId) : Except ModelError (List TableId) :=
  match (st.schema s).tables with
  | [] => .error (.empty .tables)
  | entries => .ok (entries.map (·.2))

/-- The keys of a schema's tables in order of registration. -/
def tableNames (st : Store) (s : SchemaId) : List Value := (st.schema s).tables.map (·.1)

end DbSchema
