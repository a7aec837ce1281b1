import DbSchema.Cli.Invocation
import DbSchema.Document.Files
import DbSchema.Model.Validity
import DbSchema.Source.Pull

/-!
# Running commands

A command sees a folder, an environment, a file of profiles and a way to reach databases.  It ends
with a code, says something on two channels, and may leave the folder changed.

## Main definitions

* `World`, `Outcome` — what a command sees and what it leaves.
* `describe` — a table in a few words.
* `runPull`, `runCheck`, `runDisplay` — the commands.
* `run` — an invocation.
-/

namespace DbSchema.Cli

open Source (Access Level Session SourceError Target)

/-- What a command sees. -/
structure World where
  folder : Folder := {}
  environment : Settings.Environment := []
  /-- The text of the file of profiles, if there is one. -/
  profiles : Option String := none
  access : Access

/-- What a command leaves. -/
structure Outcome where
  code : Nat
  output : String := ""
  messages : String := ""
  folder : Folder
  /-- The places connected to, in order. -/
  opened : List Target := []
deriving Repr, Inhabited

/-- Lines as text. -/
def linesText (lines : List String) : String := String.join (lines.map (· ++ "\n"))

/-- The lines of a log that are told. -/
def told (verbose : Bool) (log : List (Level × String)) : List String :=
  (log.filter fun line => verbose || line.1 == .info).map (·.2)

/-- The end of a command that is given up, with what was told before. -/
def givenUp (w : World) (code : Nat) (told : List String) (reason : String) : Outcome :=
  { code, messages := linesText (told ++ [reason]), folder := w.folder }

/-- A fault ends a command without an outcome. -/
def faulty {α : Type} (f : Fault) : Except SourceError α := .error (.model (.fault f))

/-! ### Reading a database -/

/-- The end of a reading that failed for a reason of some category. -/
def reading (w : World) (told : List String) (shown : Ref → String) (e : SourceError) :
    Except SourceError Outcome :=
  match e.report? shown with
  | none => .error e
  | some r =>
    if r.category = .config then .ok (givenUp w 2 told ("Configuration error: " ++ r.message))
    else .ok (givenUp w 1 told ("Introspection error: " ++ r.message))

/-- The endings of the names of files that hold a whole schema. -/
def fileSuffixes : List String := [".yaml", ".yml"]

/-- The folder after writing a schema to a place: a file, or a folder with a file for each table.
Tells how much was written. -/
def save (st : Store) (s : SchemaId) (d : Folder) (place : Path) :
    Except ModelError (Folder × String) := do
  if fileSuffixes.contains place.suffix then
    match d.makeFolders place.parent with
    | .error f => throw (.fault f)
    | .ok d =>
      match d.write place (← schemaText st s) with
      | .error f => throw (.fault f)
      | .ok d =>
        return (d, "Wrote " ++ toString (tableNames st s).length ++ " tables to " ++ place.text)
  else
    let (d, written) ← exportTables st s place d
    return (d, "Wrote " ++ toString written.length ++ " table files to " ++ place.text)

/-- Writes a valid schema to a place, or to the output if there is none. -/
def deliver (w : World) (told : List String) (st : Store) (s : SchemaId)
    (output : Option String) : Except ModelError Outcome := do
  match output with
  | none => return { code := 0, output := ← schemaText st s, messages := linesText told,
                     folder := w.folder }
  | some place =>
    let (folder, line) ← save st s w.folder (.ofText place)
    return { code := 0, messages := linesText (told ++ [line]), folder }

/-- The end of a reading that gave a schema: it is checked and delivered. -/
def finish (w : World) (told : List String) (output : Option String) (st : Store) (s : SchemaId) :
    Except SourceError Outcome :=
  let (valid, st) := (Edit.isValid (.schema s)).run st
  match valid with
  | .error e => .error (.model e)
  | .ok false => .ok (givenUp w 1 told ("Validation error: " ++ errorText st (.schema s)))
  | .ok true => (deliver w told st s output).mapError .model

/-- Reads a database, checks what was read, and writes it. -/
def runPull (w : World) (verbose : Bool) (given : Settings) (profile output : Option String) :
    Except SourceError Outcome :=
  match Settings.resolve w.environment w.profiles given profile with
  | .error e => reading w [] Store.empty.shown e
  | .ok settings =>
    let (result, session) := (Source.pull w.access settings).run {}
    let told := told verbose session.log
    let outcome :=
      match result with
      | .error e => reading w told session.store.shown e
      | .ok s => finish w told output session.store s
    outcome.map fun o => { o with opened := session.opened }

/-! ### Schema files -/

/-- The end of a command on schema files that failed; a fault ends it without an outcome. -/
def rejected (w : World) (what : String) (st : Store) (e : LoadError) :
    Except SourceError Outcome :=
  match e.fault? with
  | some f => faulty f
  | none => .ok (givenUp w 1 [] (what ++ ": " ++ e.message st.shown))

/-- The names in a list of names. -/
def namesIn : Value → List String
  | .list items _ => items.filterMap Value.asText?
  | _ => []

/-- The primary key of a table in a few words. -/
def describeKey (st : Store) (t : TableId) : List String :=
  match primaryKeyOf st t with
  | .ok c => ["primary key: " ++ ", ".intercalate (namesIn (st.constraint c).fields)]
  | .error _ => []

/-- A number of things, unless there are none. -/
def describeCount (count : Nat) (what : String) : List String :=
  if count = 0 then [] else [toString count ++ " " ++ what]

/-- A table in a few words. -/
def describe (st : Store) (t : TableId) : String :=
  let x := st.table t
  ", ".intercalate <|
    [toString x.fields.length ++ " fields"] ++ describeKey st t ++
      describeCount x.indices.length "indices" ++ describeCount x.constraints.length "constraints"

/-- The line for a table. -/
def tableLine (st : Store) (t : TableId) : String :=
  "  - " ++ st.plain (st.table t).name ++ " (" ++ describe st t ++ ")"

/-- The schema in schema files, if it is valid. -/
def loadValid (d : Folder) (path : Path) : Load SchemaId := do
  let s ← loadPath d path
  Load.edit (Edit.ask (checkSchema · s))
  return s

/-- Checks schema files and lists their tables. -/
def runCheck (w : World) (path : String) : Except SourceError Outcome :=
  match (loadValid w.folder (.ofText path)).run .empty with
  | (.error e, st) => rejected w "Validation error" st e
  | (.ok s, st) =>
    let tables := (st.schema s).tables.map (·.2)
    let title := "Validated " ++ toString tables.length ++ " tables:"
    .ok { code := 0, output := linesText (title :: tables.map (tableLine st)), folder := w.folder }

/-- The text of a schema, or of the table of a given name if there is one. -/
def displayed (st : Store) (s : SchemaId) (table : Option String) :
    Except ModelError (Option String) := do
  match table with
  | none => return some (← schemaText st s)
  | some name =>
    match ← lookupTable st s (.text name) with
    | none => return none
    | some t => return some (← tableText st t)

/-- Shows schema files, or one of their tables. -/
def runDisplay (w : World) (path : String) (table : Option String) :
    Except SourceError Outcome :=
  match (loadPath w.folder (.ofText path)).run .empty with
  | (.error e, st) => rejected w "Error" st e
  | (.ok s, st) =>
    match displayed st s table with
    | .error e => rejected w "Error" st (.model e)
    | .ok none =>
      .ok (givenUp w 1 [] ("Table '" ++ table.getD "" ++ "' not found"))
    | .ok (some text) => .ok { code := 0, output := text, folder := w.folder }

/-- Runs an invocation.  What no category describes ends it without an outcome. -/
def run (w : World) (i : Invocation) : Except SourceError Outcome :=
  match i.command with
  | .pull given profile output => runPull w i.verbose given profile output
  | .check path => runCheck w path
  | .display path table => runDisplay w path table

end DbSchema.Cli
