import DbSchema.Model.Display
import DbSchema.Model.Children

/-!
# Documents as schemas

A document holds one table, or a schema with a list of tables.  Reading one refuses unknown keys
and sections of the wrong shape; what a table's children refuse is reported with the name of the
table.

## Main definitions

* `Part` — the parts of a document that are mappings.
* `LoadError` — why a document cannot be read.
* `Load` — reading into a store.
* `decodeTable`, `decodeDocument` — reading a table and a whole document.
-/

namespace DbSchema

/-- The parts of a document that are mappings with fixed keys. -/
inductive Part
  | schema
  | table
  | field
  | index
  | constraint
deriving DecidableEq, Repr, Inhabited

namespace Part

/-- The name of a part. -/
def noun : Part → String
  | schema => "schema"
  | table => "table"
  | field => "field"
  | index => "index"
  | constraint => "constraint"

/-- The keys that a part may have. -/
def keys : Part → List String
  | schema => ["schema", "tables"]
  | table => ["table", "options", "fields", "indices", "constraints"]
  | field =>
    ["name", "data_type", "size", "nullable", "default", "auto_increment", "comments", "extra"]
  | index => IndexSpec.parameters
  | constraint => ConstraintSpec.parameters

end Part

/-- The parameter of a field that a key of a document stands for. -/
def fieldParameter : String → String
  | "nullable" => "is_nullable"
  | "default" => "default_value"
  | "auto_increment" => "is_auto_increment"
  | key => key

/-- Why a document cannot be read. -/
inductive LoadError
  | noSuchPath (path : String)
  | invalid (path : String)
  | emptyFile (path : String)
  | notMapping (path : String)
  | unknownKeys (part : Part) (keys : List String)
  | headNotMapping
  | noTableName
  | tableNameNotText (v : Value)
  | entryNotMapping (part : Part) (v : Value)
  | sectionNotList (key : String) (v : Value)
  | fieldWithoutName
  | inTable (name : String) (cause : LoadError)
  | model (e : ModelError)
  | fault (f : Fault)
deriving Repr, Inhabited

namespace LoadError

/-- The wording of an error. -/
def message (shown : Ref → String) : LoadError → String
  | noSuchPath path => "Schema path does not exist: " ++ path
  | invalid path => "Invalid YAML in " ++ path ++ ":"
  | emptyFile path => "Empty YAML file: " ++ path
  | notMapping path => "Expected a mapping in " ++ path
  | unknownKeys part keys =>
    "Unknown field(s) in " ++ part.noun ++ " definition: " ++ ", ".intercalate keys
  | headNotMapping => "Expected a mapping for 'schema'"
  | noTableName => "Table definition missing 'table' field"
  | tableNameNotText v => "Table name must be a string, got " ++ v.display shown
  | entryNotMapping part v =>
    "Expected a mapping for " ++ part.noun ++ " definition, got " ++ v.display shown
  | sectionNotList key v => "Expected a list for '" ++ key ++ "', got " ++ v.display shown
  | fieldWithoutName => "Field definition missing 'name' field"
  | inTable name cause => "Table '" ++ name ++ "': " ++ cause.message shown
  | model e => e.message shown
  | fault f => f.message shown

/-- The fault behind an error: it is one, or it shows a value that has no text. -/
def fault? : LoadError → Option Fault
  | fault f => some f
  | model e => e.fault?
  | tableNameNotText v | entryNotMapping _ v | sectionNotList _ v => v.showFault?
  | _ => none

/-- Category, wording and details of an error; a fault has none. -/
def report? (shown : Ref → String) : LoadError → Option Report
  | fault _ => none
  | model e => e.report? shown
  | e => some ⟨.load, e.message shown, []⟩

/-- The error with the name of the table it occurred in; a fault stays as it is. -/
def within (name : String) (e : LoadError) : LoadError :=
  match e.fault? with
  | some f => .fault f
  | none => .inTable name e

end LoadError

/-- Reading into a store. -/
abbrev Load := ExceptT LoadError (StateM Store)

namespace Load

/-- An operation on the store while reading. -/
def edit {α : Type} (e : Edit α) : Load α := ExceptT.adapt LoadError.model e

/-- The result of a pure step of reading. -/
def pureStep {α : Type} : Except LoadError α → Load α
  | .ok a => return a
  | .error e => throw e

end Load

/-- The keys of a mapping that are not among the allowed ones, in ascending order; they must be
texts. -/
def unknownKeys (allowed : List String) (entries : List (Value × Value)) :
    Except Fault (List String) :=
  let unknown := entries.filter fun e =>
    match e.1 with
    | .text k => !allowed.contains k
    | _ => true
  if unknown.all fun e => e.1.asText?.isSome then
    .ok ((unknown.filterMap fun e => e.1.asText?).mergeSort fun a b => decide (a ≤ b))
  else .error .unlistable

/-- Refuses unknown keys. -/
def checkKeys (part : Part) (entries : List (Value × Value)) : Except LoadError Unit :=
  match unknownKeys part.keys entries with
  | .error f => .error (.fault f)
  | .ok [] => .ok ()
  | .ok keys => .error (.unknownKeys part keys)

/-- The entries of a part, which must be a mapping with known keys. -/
def partEntries (part : Part) : Value → Except LoadError (List (Value × Value))
  | .map entries _ => do
    checkKeys part entries
    return entries
  | v => .error (.entryNotMapping part v)

/-- The value under a key, null when there is none. -/
def valueAt (key : String) (entries : List (Value × Value)) : Value :=
  (Value.entry? key entries).getD .null

/-- The items of a section: a list, or nothing for everything that counts as false. -/
def sectionItems (key : String) (entries : List (Value × Value)) :
    Except LoadError (List Value) :=
  let v := valueAt key entries
  if !v.truthy then .ok []
  else
    match v with
    | .list items _ => .ok items
    | v => .error (.sectionNotList key v)

/-- The entries of a mapping whose keys are texts as parameters. -/
def paramsOf (rename : String → String) (entries : List (Value × Value)) : Params :=
  entries.filterMap fun e => e.1.asText?.map fun k => (rename k, e.2)

/-- The parameters of a field definition. -/
def fieldParams (v : Value) : Except LoadError Params := do
  let entries ← partEntries .field v
  if !(valueAt "name" entries).truthy then throw .fieldWithoutName
  return paramsOf fieldParameter entries

/-- The parameters of an index or a constraint definition. -/
def childParams (part : Part) (v : Value) : Except LoadError Params := do
  return paramsOf id (← partEntries part v)

/-- Adds one child for every definition of a section. -/
def decodeChildren (params : Value → Except LoadError Params) (add : Params → Edit Unit) :
    List Value → Load Unit
  | [] => return ()
  | v :: r => do
    let ps ← Load.pureStep (params v)
    Load.edit (add ps)
    decodeChildren params add r

/-- Makes the table that the entries of a table definition describe. -/
def decodeTableBody (name : String) (entries : List (Value × Value)) : Load TableId := do
  let t ← Load.edit (Edit.newTable { name := .text name })
  decodeChildren fieldParams (fun ps => discard (Edit.addField t .null ps))
    (← Load.pureStep (sectionItems "fields" entries))
  decodeChildren (childParams .index) (fun ps => discard (Edit.addIndex t .null ps))
    (← Load.pureStep (sectionItems "indices" entries))
  decodeChildren (childParams .constraint) (fun ps => discard (Edit.addConstraint t .null ps))
    (← Load.pureStep (sectionItems "constraints" entries))
  let options := valueAt "options" entries
  if options.truthy then discard (Load.edit (Edit.addOptions t [options]))
  return t

/-- The name of a table definition. -/
def tableName (entries : List (Value × Value)) : Except LoadError String :=
  let v := valueAt "table" entries
  if !v.truthy then .error .noTableName
  else
    match v with
    | .text s => .ok s
    | v => .error (.tableNameNotText v)

/-- Reads a table definition and registers the table. -/
def decodeTable (s : SchemaId) (v : Value) : Load TableId := do
  let entries ← Load.pureStep (partEntries .table v)
  let name ← Load.pureStep (tableName entries)
  ExceptT.adapt (LoadError.within name) do
    let t ← decodeTableBody name entries
    Load.edit (Edit.addTable s (.object (.table t)) [])

/-- Reads a list of table definitions. -/
def decodeTables (s : SchemaId) : List Value → Load Unit
  | [] => return ()
  | v :: r => do
    discard (decodeTable s v)
    decodeTables s r

/-- The name and the database that a document gives for its schema. -/
def decodeHead (entries : List (Value × Value)) : Except LoadError (Value × Value) :=
  let v := valueAt "schema" entries
  if !v.truthy then .ok (.text "", .text "")
  else
    match v with
    | .map head _ =>
      .ok ((Value.entry? "name" head).getD (.text ""),
        (Value.entry? "database" head).getD (.text ""))
    | _ => .error .headNotMapping

/-- Reads the entries of a document into a new schema. -/
def decodeEntries (entries : List (Value × Value)) : Load SchemaId := do
  if (Value.entry? "tables" entries).isNone then
    let s ← Load.edit (Edit.newSchema (.text "") (.text ""))
    discard (decodeTable s (.map entries .own))
    return s
  else
    Load.pureStep (checkKeys .schema entries)
    let (name, database) ← Load.pureStep (decodeHead entries)
    let s ← Load.edit (Edit.newSchema name database)
    decodeTables s (← Load.pureStep (sectionItems "tables" entries))
    return s

/-- The entries of the document in a file, which must be a mapping. -/
def documentEntries (path : String) : Value → Except LoadError (List (Value × Value))
  | .null => .error (.emptyFile path)
  | .map entries _ => .ok entries
  | _ => .error (.notMapping path)

/-- Reads the document in a file into a new schema. -/
def decodeDocument (path : String) (v : Value) : Load SchemaId := do
  decodeEntries (← Load.pureStep (documentEntries path v))

end DbSchema
