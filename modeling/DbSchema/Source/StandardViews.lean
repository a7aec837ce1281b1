import DbSchema.Source.Pragmas

/-!
# Reading tables through the standard views

PostgreSQL and MySQL describe their tables in the views of the information schema.  The views for
columns and keys agree; foreign keys, indices, checks and options are found in different places.

## Main definitions

* `Dialect` — the two databases.
* `StandardViews.tableNames` — the names of the tables.
* `StandardViews.readTable` — one table.
-/

namespace DbSchema.Source

/-- The databases with standard views. -/
inductive Dialect
  | postgres
  | mysql
deriving DecidableEq, Repr, Inhabited

namespace StandardViews

open Probe

/-- Lines as one statement. -/
def sql (lines : List String) : String := " ".intercalate lines

/-- The statement that gives the name of the current database schema. -/
def currentStatement : Dialect → String
  | .postgres => "SELECT current_schema() AS name"
  | .mysql => "SELECT DATABASE() AS name"

/-- The statement that lists the tables. -/
def tablesStatement : String := sql [
  "SELECT table_name",
  "FROM information_schema.tables",
  "WHERE table_schema = %s",
  "AND table_type = 'BASE TABLE'",
  "ORDER BY table_name"]

/-- The statement for the columns of a table. -/
def columnsStatement : String := sql [
  "SELECT column_name, data_type, character_maximum_length,",
  "numeric_precision, numeric_scale, is_nullable, column_default",
  "FROM information_schema.columns",
  "WHERE table_schema = %s",
  "AND table_name = %s",
  "ORDER BY ordinal_position"]

/-- The statement for the primary key and the unique constraints of a table. -/
def keysStatement : String := sql [
  "SELECT tc.constraint_name, tc.constraint_type, kcu.column_name",
  "FROM information_schema.table_constraints tc",
  "JOIN information_schema.key_column_usage kcu",
  "ON tc.constraint_name = kcu.constraint_name",
  "AND tc.table_schema = kcu.table_schema",
  "AND tc.table_name = kcu.table_name",
  "WHERE tc.table_schema = %s",
  "AND tc.table_name = %s",
  "AND tc.constraint_type IN ('PRIMARY KEY', 'UNIQUE')",
  "ORDER BY tc.constraint_name, kcu.ordinal_position"]

/-- The statement for the foreign keys of a table. -/
def foreignKeysStatement : Dialect → String
  | .postgres => sql [
    "SELECT tc.constraint_name, kcu.column_name,",
    "ccu.table_name AS referenced_table_name,",
    "ccu.column_name AS referenced_column_name,",
    "rc.update_rule, rc.delete_rule",
    "FROM information_schema.table_constraints tc",
    "JOIN information_schema.key_column_usage kcu",
    "ON tc.constraint_name = kcu.constraint_name",
    "AND tc.table_schema = kcu.table_schema",
    "JOIN information_schema.constraint_column_usage ccu",
    "ON ccu.constraint_name = tc.constraint_name",
    "AND ccu.constraint_schema = tc.table_schema",
    "JOIN information_schema.referential_constraints rc",
    "ON rc.constraint_name = tc.constraint_name",
    "AND rc.constraint_schema = tc.table_schema",
    "WHERE tc.constraint_type = 'FOREIGN KEY'",
    "AND tc.table_schema = %s",
    "AND tc.table_name = %s",
    "ORDER BY tc.constraint_name, kcu.ordinal_position"]
  | .mysql => sql [
    "SELECT kcu.constraint_name, kcu.column_name,",
    "kcu.referenced_table_name, kcu.referenced_column_name,",
    "rc.update_rule, rc.delete_rule",
    "FROM information_schema.key_column_usage kcu",
    "JOIN information_schema.referential_constraints rc",
    "ON rc.constraint_schema = kcu.constraint_schema",
    "AND rc.constraint_name = kcu.constraint_name",
    "WHERE kcu.table_schema = %s",
    "AND kcu.table_name = %s",
    "AND kcu.referenced_table_name IS NOT NULL",
    "ORDER BY kcu.constraint_name, kcu.ordinal_position"]

/-- The statement for the check constraints of a table. -/
def checksStatement : String := sql [
  "SELECT tc.constraint_name, cc.check_clause",
  "FROM information_schema.table_constraints tc",
  "JOIN information_schema.check_constraints cc",
  "ON cc.constraint_name = tc.constraint_name",
  "AND cc.constraint_schema = tc.table_schema",
  "WHERE tc.constraint_type = 'CHECK'",
  "AND tc.table_schema = %s",
  "AND tc.table_name = %s",
  "ORDER BY tc.constraint_name"]

/-- The statement for the indices of a table. -/
def indicesStatement : Dialect → String
  | .postgres => sql [
    "SELECT i.relname AS index_name, ix.indisunique AS is_unique,",
    "a.attname AS column_name",
    "FROM pg_catalog.pg_class t",
    "JOIN pg_catalog.pg_namespace n ON n.oid = t.relnamespace",
    "JOIN pg_catalog.pg_index ix ON ix.indrelid = t.oid",
    "JOIN pg_catalog.pg_class i ON i.oid = ix.indexrelid",
    "JOIN pg_catalog.pg_attribute a",
    "ON a.attrelid = t.oid AND a.attnum = ANY(ix.indkey)",
    "WHERE n.nspname = %s",
    "AND t.relname = %s",
    "AND NOT ix.indisprimary",
    "ORDER BY i.relname, array_position(ix.indkey::smallint[], a.attnum)"]
  | .mysql => sql [
    "SELECT index_name, non_unique, index_type, column_name",
    "FROM information_schema.statistics",
    "WHERE table_schema = %s",
    "AND table_name = %s",
    "ORDER BY index_name, seq_in_index"]

/-- The statement for the options of a table. -/
def optionsStatement : String := sql [
  "SELECT engine, table_collation",
  "FROM information_schema.tables",
  "WHERE table_schema = %s",
  "AND table_name = %s"]

/-- The name of the database schema that is read: the given one, or else the current one, which is
asked for once. -/
def schemaName (d : Dialect) (c : Connection) (given : Value) : Probe Value := do
  if !given.same .null then return given
  match (← get).schemaName with
  | some name => return name
  | none =>
    let name ←
      match ← fetchAll c (currentStatement d) none with
      | [] => pure (.text "")
      | row :: _ => do pure (orEmpty (some (← pureStep (row.item "name"))))
    modify fun s => { s with schemaName := some name }
    return name

/-- The names of the tables. -/
def tableNames (d : Dialect) (c : Connection) (given : Value) : Probe (List Value) := do
  let schema ← schemaName d c given
  (← fetchAll c tablesStatement (some [schema])).mapM fun row => pureStep (row.item "table_name")

/-- The rows that a statement about a table gives. -/
def rowsAbout (d : Dialect) (c : Connection) (given : Value) (statement : String) (t : TableId) :
    Probe (List Row) := do
  let schema ← schemaName d c given
  fetchAll c statement (some [schema, ((← get).store.table t).name])

/-- The types whose size is given by precision and scale. -/
def numericTypes : List String := ["decimal", "numeric"]

/-- The integer of a column that must be there. -/
def integerAt (row : Row) (column : String) : Except Fault Value := do
  return .int (← (← row.item column).toInteger)

/-- Whether a column is there and counts as true. -/
def holds (row : Row) (column : String) : Except Fault Bool := do
  return (← row.get column).any (·.truthy)

/-- The size of a column: its length, or its precision and scale if it is a decimal. -/
def columnSize (row : Row) : Except Fault (List Value) := do
  if ← holds row "character_maximum_length" then
    return [← integerAt row "character_maximum_length"]
  let dataType ← textOrEmpty "lower" (← row.item "data_type")
  if numericTypes.contains (Text.lower dataType) then
    if ← holds row "numeric_precision" then
      let precision ← integerAt row "numeric_precision"
      let scale := (← row.get "numeric_scale").getD .null
      return [precision, .int (← if scale.truthy then scale.toInteger else .ok 0)]
  return []

/-- The default of a column as text. -/
def columnDefault (row : Row) : Probe Value := do
  match ← pureStep (row.get "column_default") with
  | none | some .null => return .null
  | some v => return .text (← plain v)

/-- Adds the column of a row. -/
def addColumn (t : TableId) (row : Row) : Probe Unit := do
  let name ← pureStep (row.item "column_name")
  let dataType ← pureStep (row.item "data_type")
  let size ← pureStep (columnSize row)
  let nullable := !(← pureStep (row.item "is_nullable")).same (.text "NO")
  let default ← columnDefault row
  discard <| edit <| Edit.addField t .null
    [("name", name), ("data_type", dataType), ("size", .ofList size),
      ("is_nullable", .bool nullable), ("default_value", default)]

/-- The columns of a group of rows. -/
def columnsOf (rows : List Row) : Except Fault (List Value) :=
  rows.mapM fun row => row.item "column_name"

/-- Adds the primary key or the unique constraint of a group of rows. -/
def addKey (t : TableId) (name : Value) (rows : List Row) : Probe Unit := do
  let columns ← pureStep (columnsOf rows)
  match rows with
  | [] => return ()
  | first :: _ =>
    if (← pureStep (first.item "constraint_type")).same (.text "PRIMARY KEY") then
      let c ← edit (Edit.primaryKey t [.ofList columns])
      edit (Edit.onConstraint c fun x => if x.name.truthy then x else { x with name })
    else
      discard <| edit <| Edit.addConstraint t .null
        [("name", name), ("type", .constraintKind .unique), ("fields", .ofList columns)]

/-- A list of values with one more, unless an equal one is in it. -/
def addNew (vs : List Value) (v : Value) : List Value :=
  if vs.any fun w => w.same v then vs else vs ++ [v]

/-- The columns of a foreign key and those it refers to, each once. -/
def keyColumns : List Row → List Value → List Value → Except Fault (List Value × List Value)
  | [], fields, targets => .ok (fields, targets)
  | row :: r, fields, targets => do
    let field ← row.item "column_name"
    let target ← row.item "referenced_column_name"
    keyColumns r (addNew fields field) (addNew targets target)

/-- Adds the foreign key of a group of rows. -/
def addForeignKey (t : TableId) (name : Value) (rows : List Row) : Probe Unit := do
  let (fields, targets) ← pureStep (keyColumns rows [] [])
  match rows with
  | [] => return ()
  | first :: _ =>
    let table ← pureStep (first.item "referenced_table_name")
    let onUpdate := orEmpty (← pureStep (first.get "update_rule"))
    let onDelete := orEmpty (← pureStep (first.get "delete_rule"))
    discard <| edit <| Edit.addConstraint t .null
      [("name", name), ("type", .constraintKind .foreignKey), ("fields", .ofList fields),
        ("reference_table", table), ("reference_fields", .ofList targets),
        ("on_update", onUpdate), ("on_delete", onDelete)]

/-- The ending of the names of checks that a column without null values brings along. -/
def notNullSuffix : String := "_not_null"

/-- Adds the check of a row, unless it only says that a column is never null. -/
def addCheck (t : TableId) (row : Row) : Probe Unit := do
  let name ← pureStep (row.item "constraint_name")
  if !Text.hasEnd (← pureStep (needText "endswith" name)) notNullSuffix then
    let expression ← pureStep (row.item "check_clause")
    discard <| edit <| Edit.addConstraint t .null
      [("name", name), ("type", .constraintKind .check), ("expression", expression)]

/-- The kind of the index that a row belongs to. -/
def indexKind (d : Dialect) (row : Row) : Except Fault IndexKind := do
  match d with
  | .postgres => return if ← holds row "is_unique" then .unique else .normal
  | .mysql =>
    let kind := Text.upper (← textOrEmpty "upper" ((← row.get "index_type").getD .null))
    if kind = "FULLTEXT" then return .fulltext
    else if kind = "SPATIAL" then return .spatial
    else return if (← (← row.item "non_unique").toInteger) = 0 then .unique else .normal

/-- Adds the index of a group of rows. -/
def addIndex (d : Dialect) (t : TableId) (name : Value) (rows : List Row) : Probe Unit := do
  match rows with
  | [] => return ()
  | first :: _ =>
    let kind ← pureStep (indexKind d first)
    let columns ← pureStep (columnsOf rows)
    discard <| edit <| Edit.addIndex t .null
      [("name", name), ("type", .indexKind kind), ("fields", .ofList columns)]

/-- Adds an option with a value, unless the value counts as false. -/
def addOption (t : TableId) (key : String) (v : Option Value) : Probe Unit := do
  match v with
  | some v =>
    if v.truthy then discard (edit (Edit.addOptions t [.text (key ++ "=" ++ (← plain v))]))
  | none => return ()

/-- Adds the options of a table: its engine and its collation. -/
def addOptions (c : Connection) (given : Value) (t : TableId) : Probe Unit := do
  match ← rowsAbout .mysql c given optionsStatement t with
  | [] => return ()
  | row :: _ =>
    addOption t "ENGINE" (← pureStep (row.get "engine"))
    addOption t "COLLATE" (← pureStep (row.get "table_collation"))

/-- Reads one table. -/
def readTable (d : Dialect) (c : Connection) (given : Value) (name : Value) : Probe TableId := do
  let t ← edit (Edit.newTable { name })
  (← rowsAbout d c given columnsStatement t).forM (addColumn t)
  let keys ← pureStep (groupRows (← rowsAbout d c given keysStatement t) "constraint_name")
  keys.forM fun g => addKey t g.1 g.2
  let references ←
    pureStep (groupRows (← rowsAbout d c given (foreignKeysStatement d) t) "constraint_name")
  references.forM fun g => addForeignKey t g.1 g.2
  if d = .postgres then (← rowsAbout d c given checksStatement t).forM (addCheck t)
  let indices ← pureStep (groupRows (← rowsAbout d c given (indicesStatement d) t) "index_name")
  (indices.filter fun g => !keys.any fun k => k.1.same g.1).forM fun g => addIndex d t g.1 g.2
  if d = .mysql then addOptions c given t
  return t

end StandardViews

end DbSchema.Source
