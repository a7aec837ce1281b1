import DbSchema.Settings.Basic
import DbSchema.Source.Reader

/-!
# Filling a schema from a database

All tables are read before any is registered, so a failure of the reading leaves the schema as it
was.  The connection is closed in any case.

## Main definitions

* `Access` — how places are connected to.
* `registerTables` — gives tables to a schema, after looking for names it has already.
* `fillFrom` — fills a schema from a connection.
* `fill` — the same, where the connection may be one to open first.
* `pull` — a new schema filled from the database that the settings describe.
-/

namespace DbSchema.Source

open Probe

/-- How a place is connected to. -/
abbrev Access := Target → Except SourceError Connection

/-- The result of a step that needs no state, with the reason why it failed. -/
def decided {α : Type} : Except SourceError α → Probe α
  | .ok a => return a
  | .error e => throw e

/-- Reads the tables of a database and closes the connection afterwards. -/
def readAndClose (c : Connection) (options : Params) : Probe (Vendor × List TableId) :=
  closing
    (do
      if c.driver = "" then throw .unknownDriver
      let vendor ← decided (vendorOf c.driver)
      tell .info ("Introspecting " ++ vendor.label ++ " database")
      let reader ← Reader.ofOptions vendor options
      return (vendor, ← readTables vendor c reader))
    (discard (request c .close))

/-- Refuses a table whose name a schema has already. -/
def checkNew (s : SchemaId) (t : TableId) : Edit Unit := do
  let name := ((← get).table t).name
  if (← Edit.ask (lookupTable · s name)).isSome then throw (.nameConflict name)

/-- Gives tables to a schema, once none of their names is in it. -/
def registerTables (s : SchemaId) (tables : List TableId) : Edit Unit := do
  tables.forM (checkNew s)
  tables.forM fun t => discard (Edit.addTable s (.object (.table t)) [])

/-- Fills a schema from a connection and gives the tables.  A schema that names no database gets
the name of the vendor. -/
def fillFrom (s : SchemaId) (c : Connection) (options : Params) : Probe (List TableId) := do
  let (vendor, tables) ← readAndClose c options
  edit (registerTables s tables)
  edit <| Edit.onSchema s fun x =>
    if x.database.truthy then x else { x with database := .text vendor.label }
  tell .info ("Introspected " ++ toString tables.length ++ " tables")
  return tables

/-- A connection to a place; the place is noted when there is one. -/
def connect (access : Access) (target : Target) : Probe Connection := do
  let c ← decided (access target)
  modify fun s => { s with opened := s.opened ++ [target] }
  return c

/-- The names of what a schema is filled from, which no option may have. -/
def fillNames : List String := ["schema", "connection", "dsn", "user", "password"]

/-- Fills a schema from a connection, or from the database that a data source name describes. -/
def fill (access : Access) (s : SchemaId) (c : Option Connection)
    (dsn user password : Option String) (options : Params) : Probe (List TableId) := do
  if options.any fun o => fillNames.contains o.1 then throw (.model (.fault .arguments))
  match c with
  | some c => fillFrom s c options
  | none =>
    let dsn := dsn.getD ""
    if dsn = "" then throw .noConnection
    fillFrom s (← connect access (.database dsn user password)) options

/-- A setting as an option. -/
def settingOption (name : String) (setting : Option String) : String × Value :=
  (name, (setting.map Value.text).getD .null)

/-- A new schema filled from the database that the settings describe. -/
def pull (access : Access) (settings : Settings) : Probe SchemaId := do
  decided settings.check
  let s ← edit (Edit.newSchema (.text "") (.text ""))
  let place := settingOption "db_schema" settings.namespaceName
  if settings.usesWorkspace then
    let target := .workspace (settings.host.getD "") (settings.token.getD "")
    let options := [settingOption "catalog" settings.catalog, place]
    discard (fill access s (some (← connect access target)) none none none options)
  else discard (fill access s none settings.dsn settings.user settings.password [place])
  return s

end DbSchema.Source
