import DbSchema.Source.Connection
import DbSchema.Source.TypeText

/-!
# Reading tables through pragmas

A SQLite database lists its tables in a master table and describes each of them through pragma
statements.  Pragmas take no parameters, so names are quoted in their text.

## Main definitions

* `quoteIdentifier` — a name between double quotes.
* `Pragmas.tableNames` — the names of the tables.
* `Pragmas.readTable` — one table.
-/

namespace DbSchema.Source

/-- A name between double quotes, with every double quote inside written twice. -/
def quoteIdentifier (name : String) : String :=
  "\"" ++ String.ofList (Text.replaceChar '"' ['"', '"'] name.toList) ++ "\""

/-- The text of a value that must have an operation that only texts have. -/
def needText (operation : String) : Value → Except Fault String
  | .text s => .ok s
  | v => .error (.noOperation v operation)

/-- The text of a value as for `needText`, empty for everything that counts as false. -/
def textOrEmpty (operation : String) (v : Value) : Except Fault String :=
  if v.truthy then needText operation v else .ok ""

/-- A value, or the empty text instead of everything that counts as false. -/
def orEmpty (v : Option Value) : Value :=
  match v with
  | some v => if v.truthy then v else .text ""
  | none => .text ""

namespace Pragmas

open Probe

/-- The type of columns that are declared without one. -/
def noType : String := "BLOB"

/-- A pragma statement about the object with a quoted name. -/
def statement (pragma quoted : String) : String := "PRAGMA " ++ pragma ++ "(" ++ quoted ++ ")"

/-- The statement that lists the tables. -/
def listStatement : String :=
  "SELECT name FROM sqlite_master WHERE type = 'table' AND name NOT LIKE 'sqlite_%'"

/-- The statement that gives the text a table was made with. -/
def sourceStatement : String :=
  "SELECT sql FROM sqlite_master WHERE type = 'table' AND name = ?"

/-- The names of the tables. -/
def tableNames (c : Connection) : Probe (List Value) := do
  (← fetchAll c listStatement none).mapM fun row => pureStep (row.item "name")

/-- Adds the columns of some rows to a table.  Gives the positions in the primary key with the
names that have one. -/
def addColumns (t : TableId) : List Row → Probe (List (Value × Value))
  | [] => return []
  | row :: r => do
    let (dataType, size) ← pureStep (splitType (← pureStep (row.item "type")))
    let name ← pureStep (row.item "name")
    let notNull ← pureStep (row.item "notnull")
    let default ← pureStep (row.item "dflt_value")
    discard <| edit <| Edit.addField t .null
      [("name", name), ("data_type", .text (if dataType = "" then noType else dataType)),
        ("size", .ofList (size.map .int)), ("is_nullable", .bool !notNull.truthy),
        ("default_value", default)]
    let position ← pureStep (row.item "pk")
    let keys ← addColumns t r
    return if position.truthy then (position, name) :: keys else keys

/-- The order of key columns: by position, then by name. -/
def keyPrecedes (a b : Value × Value) : Except Fault Bool :=
  Value.precedes (.tuple [a.1, a.2] .own) (.tuple [b.1, b.2] .own)

/-- Whether the text a table was made with speaks of automatic increments. -/
def hasAutoincrement (c : Connection) (name : Value) : Probe Bool := do
  match ← fetchAll c sourceStatement (some [name]) with
  | [] => return false
  | row :: _ =>
    let sql ← pureStep (textOrEmpty "upper" (← pureStep (row.item "sql")))
    return Text.occursIn "AUTOINCREMENT" (Text.upper sql)

/-- Gives a table its primary key; a single integer column of it may count up by itself. -/
def addKey (c : Connection) (t : TableId) (name : Value) (keys : List Value) : Probe Unit := do
  if !keys.isEmpty then
    discard (edit (Edit.primaryKey t [.ofList keys]))
    if let [key] := keys then
      let f ← ask (fieldNamed · t key)
      if (← pureStep ((← get).store.field f).normalizedType) = "INTEGER" then
        if ← hasAutoincrement c name then
          edit (Edit.onField f fun x => { x with autoIncrement := .bool true })

/-- The columns of an index in order; null for one that is an expression. -/
def indexColumns (c : Connection) (name : Value) : Probe (List Value) := do
  let quoted := quoteIdentifier (← pureStep (needText "replace" name))
  let rows ← fetchAll c (statement "index_info" quoted) none
  (← pureStep (sortRows "seqno" rows)).mapM fun row => pureStep (row.item "name")

/-- Adds the index of a row: as a constraint if it enforces one, not at all if it backs the primary
key or holds an expression. -/
def addIndex (c : Connection) (t : TableId) (row : Row) : Probe Unit := do
  let origin := (← pureStep (row.get "origin")).getD (.text "c")
  if !origin.same (.text "pk") then
    let name ← pureStep (row.item "name")
    let columns ← indexColumns c name
    if columns.any (·.same .null) then tell .debug ("Skipping expression index " ++ (← plain name))
    else if origin.same (.text "u") then
      discard <| edit <| Edit.addConstraint t .null
        [("name", name), ("type", .constraintKind .unique), ("fields", .ofList columns)]
    else
      let unique ← pureStep (row.item "unique")
      discard <| edit <| Edit.addIndex t .null
        [("name", name), ("type", .indexKind (if unique.truthy then .unique else .normal)),
          ("fields", .ofList columns)]

/-- Adds the foreign key of a group of rows. -/
def addForeignKey (t : TableId) (rows : List Row) : Probe Unit := do
  match ← pureStep (sortRows "seq" rows) with
  | [] => return ()
  | first :: rest =>
    let rows := first :: rest
    let fields ← rows.mapM fun row => pureStep (row.item "from")
    let table ← pureStep (first.item "table")
    let targets ← rows.mapM fun row => pureStep (row.item "to")
    let optional (column : String) : Probe Value := do
      return orEmpty (← pureStep (first.get column))
    let onUpdate ← optional "on_update"
    let onDelete ← optional "on_delete"
    let matching ← optional "match"
    discard <| edit <| Edit.addConstraint t .null
      [("type", .constraintKind .foreignKey), ("fields", .ofList fields),
        ("reference_table", table), ("reference_fields", .ofList (targets.filter (·.truthy))),
        ("on_update", onUpdate), ("on_delete", onDelete), ("match_type", matching)]

/-- Reads one table. -/
def readTable (c : Connection) (name : Value) : Probe TableId := do
  let t ← edit (Edit.newTable { name })
  let quoted := quoteIdentifier (← pureStep (needText "replace" name))
  let keys ← addColumns t (← fetchAll c (statement "table_info" quoted) none)
  addKey c t name ((← pureStep (sortBy keyPrecedes keys)).map (·.2))
  (← fetchAll c (statement "index_list" quoted) none).forM (addIndex c t)
  let groups ← pureStep (groupRows (← fetchAll c (statement "foreign_key_list" quoted) none) "id")
  groups.forM fun g => addForeignKey t g.2
  return t

end Pragmas

end DbSchema.Source
