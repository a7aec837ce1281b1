import DbSchema.Source.Clustering
import DbSchema.Source.Pragmas

/-!
# Reading tables through a catalog

Databricks describes the tables of one schema of a catalog in views of its own.  Only Delta tables
are read; what kind a table is, is told by its own row of the table view.

## Main definitions

* `Place` — the catalog and the schema that are read.
* `TableInfo`, `TableInfo.isDelta` — what is known of a table, and whether it is read at all.
* `Catalog.tableNames` — the names of the tables.
* `Catalog.readTable` — one table, if it is a Delta table.
-/

namespace DbSchema.Source

/-- The catalog and the schema that are read. -/
structure Place where
  catalog : String
  schema : String
deriving DecidableEq, Repr, Inhabited

/-- What the table view tells of a table. -/
structure TableInfo where
  tableType : Value
  format : Value
  clustering : Value
deriving Repr, Inhabited

/-- The types of the tables that are read. -/
def readTypes : List String := ["MANAGED", "EXTERNAL"]

/-- Whether a table is a Delta table: managed or external, and of that format if of any. -/
def TableInfo.isDelta (info : TableInfo) : Except Fault Bool := do
  let tableType := Text.upper (← textOrEmpty "upper" info.tableType)
  let format := Text.upper (Text.trim (← textOrEmpty "strip" info.format))
  return readTypes.contains tableType && (format == "" || format == "DELTA")

namespace Catalog

open Probe

/-- A name between single quotes. -/
def literal (name : String) : String := "'" ++ name ++ "'"

/-- A view of the catalog. -/
def Place.view (p : Place) (name : String) : String :=
  p.catalog ++ ".information_schema." ++ name

/-- The statement that lists the tables. -/
def tablesStatement (p : Place) : String :=
  "SELECT table_name FROM " ++ Place.view p "tables" ++ " WHERE table_schema = " ++
    literal p.schema

/-- The statement for what is known of a table. -/
def infoStatement (p : Place) (table : String) : String :=
  "SELECT table_name, table_type, data_source_format, clustering_columns FROM " ++
    Place.view p "tables" ++ " WHERE table_schema = " ++ literal p.schema ++
    " AND table_name = " ++ literal table

/-- The statement for the columns of a table. -/
def columnsStatement (p : Place) (table : String) : String :=
  "SELECT column_name, data_type, is_nullable, column_default, comment FROM " ++
    Place.view p "columns" ++ " WHERE table_schema = " ++ literal p.schema ++
    " AND table_name = " ++ literal table ++ " ORDER BY ordinal_position"

/-- A statement for the constraints of a table of one type, joined with a view that holds a column
of each. -/
def constraintsStatement (p : Place) (table column other view type : String) : String :=
  "SELECT tc.constraint_name, " ++ column ++ " FROM " ++ Place.view p "table_constraints" ++
    " tc JOIN " ++ Place.view p view ++ " " ++ other ++ " ON tc.constraint_name = " ++ other ++
    ".constraint_name WHERE tc.table_schema = " ++ literal p.schema ++ " AND tc.table_name = " ++
    literal table ++ " AND tc.constraint_type = '" ++ type ++ "'"

/-- The statement for the primary key of a table. -/
def keyStatement (p : Place) (table : String) : String :=
  constraintsStatement p table "ccu.column_name" "ccu" "constraint_column_usage" "PRIMARY KEY"

/-- The statement for the check constraints of a table. -/
def checksStatement (p : Place) (table : String) : String :=
  constraintsStatement p table "cc.check_clause" "cc" "check_constraints" "CHECK"

/-- A name between back quotes. -/
def backquoted (name : String) : String := "\x60" ++ name ++ "\x60"

/-- The statement for the properties of a table. -/
def propertiesStatement (p : Place) (table : String) : String :=
  "SHOW TBLPROPERTIES " ++ backquoted p.catalog ++ "." ++ backquoted p.schema ++ "." ++
    backquoted table

/-- A column of a row, null if it is missing, asked in the way that the row may be asked. -/
def column (row : Row) (name : String) : Value :=
  match row.get name with
  | .ok found => found.getD .null
  | .error _ =>
    match row.toMapping with
    | .ok columns => (Value.entry? name columns).getD .null
    | .error _ =>
      match row.item name with
      | .ok v => v
      | .error _ => .null

/-- The names of the tables. -/
def tableNames (c : Connection) (p : Place) : Probe (List Value) := do
  return (← fetchAll c (tablesStatement p) none).map fun row => column row "table_name"

/-- What is known of a table, if it is there. -/
def tableInfo (c : Connection) (p : Place) (name : Value) : Probe (Option TableInfo) := do
  let rows ← fetchAll c (infoStatement p (← plain name)) none
  return (rows.find? fun row => (column row "table_name").same name).map fun row =>
    ⟨column row "table_type", column row "data_source_format", column row "clustering_columns"⟩

/-- Adds the column of a row. -/
def addColumn (t : TableId) (row : Row) : Probe Unit := do
  let (dataType, size) ← pureStep (splitType (column row "data_type"))
  discard <| edit <| Edit.addField t .null
    [("name", column row "column_name"), ("data_type", .text (Text.upper dataType)),
      ("size", .ofList (size.map .int)),
      ("is_nullable", .bool !(column row "is_nullable").same (.text "NO")),
      ("default_value", column row "column_default"), ("comments", column row "comment")]

/-- Adds the primary key of some rows. -/
def addKey (t : TableId) (rows : List Row) : Probe Unit := do
  match rows with
  | [] => return ()
  | first :: _ =>
    let c ← edit (Edit.primaryKey t [.ofList (rows.map fun row => column row "column_name")])
    edit (Edit.onConstraint c fun x =>
      { x with name := orEmpty (some (column first "constraint_name")) })

/-- Adds the check of a row. -/
def addCheck (t : TableId) (row : Row) : Probe Unit :=
  discard <| edit <| Edit.addConstraint t .null
    [("name", column row "constraint_name"), ("type", .constraintKind .check),
      ("expression", column row "check_clause")]

/-- The option that names the clustering columns. -/
def clusterOption (columns : List String) : String :=
  "CLUSTER BY (" ++ ", ".intercalate columns ++ ")"

/-- Adds options to a table. -/
def addOptions (t : TableId) (options : List String) : Probe Unit :=
  discard (edit (Edit.addOptions t [.ofTexts options]))

/-- The option that a property gives. -/
def propertyOption (row : Row) : Probe String := do
  return (← plain (column row "key")) ++ "=" ++ (← plain (column row "value"))

/-- Reads a table of which something is known. -/
def readKnown (c : Connection) (p : Place) (name : Value) (info : TableInfo) : Probe TableId := do
  let t ← edit (Edit.newTable { name })
  let own ← plain ((← get).store.table t).name
  (← fetchAll c (columnsStatement p own) none).forM (addColumn t)
  addKey t (← fetchAll c (keyStatement p own) none)
  (← fetchAll c (checksStatement p own) none).forM (addCheck t)
  let clustering ← pureStep (clusteringColumns (← get).store.shown info.clustering)
  if !clustering.isEmpty then addOptions t [clusterOption clustering]
  let properties ← fetchAll c (propertiesStatement p (← plain name)) none
  addOptions t (← properties.mapM propertyOption)
  return t

/-- Reads one table, if it is a Delta table. -/
def readTable (c : Connection) (p : Place) (name : Value) : Probe (Option TableId) := do
  match ← tableInfo c p name with
  | none => return none
  | some info =>
    if ← pureStep info.isDelta then return some (← readKnown c p name info) else return none

end Catalog

end DbSchema.Source
