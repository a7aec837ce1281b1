import DbSchema.Document.Decode
import DbSchema.Document.Encode
import DbSchema.Yaml.Content
import DbSchema.Yaml.Print

/-!
# Documents as text

The text of a table or a schema, and the schema that a text describes.

## Main definitions

* `tableText`, `schemaText` — a table and a schema as text.
* `parseText` — the value that a text holds.
* `decodeText` — the schema that a text describes.
* `reload` — a schema written out and read in again.
-/

namespace DbSchema

/-- What a child without an owner is written as. -/
def describeChild (title : String) (attributes : Params) (owner : Option Ref) (notes : Notes) :
    Except Fault Yaml.Description :=
  match owner with
  | none => .ok ⟨title, attributes ++ [("_table", .null)] ++ notes⟩
  | some _ => .error .unwritableReference

/-- What an object is written as when it stands inside a value: everything in it.  References to an
owner cannot be written, and tables not at all. -/
def describe (st : Store) : Ref → Except Fault Yaml.Description
  | .schema s =>
    let x := st.schema s
    .ok ⟨"registry.Schema",
      [("name", x.name), ("database", x.database),
        ("_tables", .map (x.tables.map fun e => (e.1, .object (.table e.2))) .own)] ++ x.notes⟩
  | .table _ => .error .unwritableReference
  | .field f =>
    let x := st.field f
    describeChild "models.Field" (x.attributes ++ [("order", x.order)]) x.owner x.notes
  | .index i =>
    let x := st.index i
    describeChild "models.Index" x.attributes x.owner x.notes
  | .constraint c =>
    let x := st.constraint c
    describeChild "models.Constraint" x.attributes x.owner x.notes

/-- The text of a value; one that cannot be written is a fault. -/
def documentText (st : Store) (v : Value) : Except ModelError String :=
  (Yaml.printDocument (describe st) st.size v).mapError .fault

/-- The text of a table. -/
def tableText (st : Store) (t : TableId) : Except ModelError String := do
  documentText st (← encodeTable st t)

/-- The text of a schema. -/
def schemaText (st : Store) (s : SchemaId) : Except ModelError String := do
  documentText st (← encodeSchema st s)

/-- The value that a text holds; `path` names the text in errors. -/
def parseText (path text : String) : Load Value := do
  match Yaml.readDocument (← get).nextNode text with
  | .ok (v, next) =>
    modify fun st => { st with nextNode := next }
    return v
  | .error .malformed => throw (.invalid path)
  | .error (.fault f) => throw (.fault f)

/-- The schema that a text describes. -/
def decodeText (path text : String) : Load SchemaId := do
  decodeDocument path (← parseText path text)

/-- Writes a schema to a text and reads it in again under a name. -/
def reload (path : String) (s : SchemaId) : Load SchemaId := do
  match schemaText (← get) s with
  | .ok text => decodeText path text
  | .error e => throw (.model e)

end DbSchema
