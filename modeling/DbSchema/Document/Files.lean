import DbSchema.Document.Text
import DbSchema.Folder

/-!
# Documents in files

A schema is read from one file, or from a folder with one table per file; it is written to a folder
with one table per file.

## Main definitions

* `loadPath` — the schema that a file or a folder describes.
* `exportTables` — a folder after writing the tables of a schema into it.
-/

namespace DbSchema

/-- The ending of the files that hold documents. -/
def documentSuffix : String := ".yaml"

/-- Reads the table definitions of the files in a folder into a schema. -/
def loadFiles (d : Folder) (folder : Path) (s : SchemaId) : List String → Load Unit
  | [] => return ()
  | name :: r => do
    let path := folder.child name
    match d.entry path with
    | .ok (.file text) =>
      let v ← parseText path.text text
      let entries ← Load.pureStep (documentEntries path.text v)
      discard (decodeTable s (.map entries .own))
      loadFiles d folder s r
    | .ok .folder => throw (.fault .isFolder)
    | .error f => throw (.fault f)

/-- The schema that a file or a folder describes. -/
def loadPath (d : Folder) (path : Path) : Load SchemaId := do
  match d.entry path with
  | .ok (.file text) => decodeText path.text text
  | .ok .folder =>
    let s ← Load.edit (Edit.newSchema (.text "") (.text ""))
    let names := ((d.resolve path).map d.names).toOption.getD []
    loadFiles d path s (names.filter fun name => Text.hasEnd name documentSuffix)
    return s
  | .error .longName => throw (.fault .longName)
  | .error _ => throw (.noSuchPath path.text)

/-- Writes one file for every table into a folder.  Gives the paths and texts written. -/
def writeTables (st : Store) (folder : Path) (d : Folder) :
    List TableId → Except ModelError (Folder × List (Path × String))
  | [] => .ok (d, [])
  | t :: r => do
    let path := folder.child (st.plain (st.table t).name ++ documentSuffix)
    let text ← tableText st t
    match d.write path text with
    | .error f => throw (.fault f)
    | .ok d =>
      let (d, written) ← writeTables st folder d r
      return (d, (path, text) :: written)

/-- Writes the tables of a schema into a folder, which is made if it is missing. -/
def exportTables (st : Store) (s : SchemaId) (folder : Path) (d : Folder) :
    Except ModelError (Folder × List (Path × String)) := do
  match d.makeFolders folder with
  | .error f => throw (.fault f)
  | .ok d => writeTables st folder d (← tablesOf st s)

end DbSchema
