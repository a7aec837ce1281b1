import DbSchema.Source.Catalog
import DbSchema.Source.StandardViews

/-!
# Readers

Each kind of database is read in its own way.  A reader is chosen by the vendor and by the options
of the caller, lists the names of the tables and reads them one by one.

## Main definitions

* `Reader` — the ways to read a database.
* `Reader.ofOptions` — the reader for a vendor and the options of a caller.
* `Reader.tableNames`, `Reader.readTable` — what a reader does.
* `readTables` — all tables of a database; what goes wrong is told as a failure of its vendor.
-/

namespace DbSchema.Source

/-- The ways to read a database. -/
inductive Reader
  | pragmas
  /-- Through the standard views, of the given database schema unless that is null. -/
  | views (dialect : Dialect) (schema : Value)
  | catalog (place : Place)
deriving Repr, Inhabited

namespace Reader

open Probe

/-- The names that options must not have, since a reader has its connection under one of them and
itself is the other. -/
def takenNames : List String := ["self", "client"]

/-- An option, null if it is not given. -/
def option (options : Params) (name : String) : Value := (options.lookup name).getD .null

/-- The reader for a vendor and the options of a caller.  A catalog is read at a place that needs
both its parts; options of no use are passed over. -/
def ofOptions (vendor : Vendor) (options : Params) : Probe Reader := do
  if options.any fun o => takenNames.contains o.1 then throw (.model (.fault .arguments))
  let schema := option options "db_schema"
  match vendor with
  | .sqlite => return .pragmas
  | .postgres => return .views .postgres schema
  | .mysql => return .views .mysql schema
  | .databricks =>
    let catalog := option options "catalog"
    if !catalog.truthy || !schema.truthy then throw .noCatalog
    let st := (← get).store
    return .catalog ⟨st.plain catalog, st.plain schema⟩

/-- The names of the tables of a database. -/
def tableNames (c : Connection) : Reader → Probe (List Value)
  | pragmas => Pragmas.tableNames c
  | views d schema => StandardViews.tableNames d c schema
  | catalog p => Catalog.tableNames c p

/-- Reads one table, unless it is to be passed over. -/
def readTable (c : Connection) (name : Value) : Reader → Probe (Option TableId)
  | pragmas => return some (← Pragmas.readTable c name)
  | views d schema => return some (← StandardViews.readTable d c schema name)
  | catalog p => Catalog.readTable c p name

/-- Reads the tables with the given names, in order, and tells of each. -/
def readEach (c : Connection) (r : Reader) : List Value → Probe (List TableId)
  | [] => return []
  | name :: rest => do
    match ← r.readTable c name with
    | none =>
      tell .debug ("Skipping " ++ (← plain name))
      readEach c r rest
    | some t =>
      let fields := toString ((← get).store.table t).fields.length
      tell .debug ("Introspected " ++ (← plain name) ++ " (" ++ fields ++ " fields)")
      return t :: (← readEach c r rest)

end Reader

open Probe

/-- The error of reading a database of a vendor: an error of a category stays as it is, everything
else is a failure of the reading. -/
def readingError (vendor : Vendor) (shown : Ref → String) (e : SourceError) : SourceError :=
  if e.isForeign then .stopped vendor (e.message shown) else e

/-- Reads all tables of a database. -/
def readTables (vendor : Vendor) (c : Connection) (r : Reader) : Probe (List TableId) := do
  let step := do r.readEach c (← r.tableNames c)
  match ← (ExceptT.lift (ExceptT.run step) : Probe (Except SourceError (List TableId))) with
  | .ok tables => return tables
  | .error e => throw (readingError vendor (← get).store.shown e)

/-- The vendor of the databases that a driver reaches. -/
def vendorOf (driver : String) : Except SourceError Vendor :=
  match Vendor.ofDriver? driver with
  | some vendor => .ok vendor
  | none => .error (.unsupported driver)

end DbSchema.Source
