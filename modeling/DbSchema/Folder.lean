import DbSchema.Error.Fault
import DbSchema.Text.Blank

/-!
# A folder of files

Schemas are read from files and written to files.  The files there are form a value: a list of
texts, each with the names that lead to it.

## Main definitions

* `Path` — a path as it is written, without empty and idle parts; `Base` says where it begins.
* `Folder` — files and folders, and which of them is the working folder.
* `Folder.entry`, `Folder.names` — what stands at a path, and what a folder holds.
* `Folder.makeFolders`, `Folder.write` — the folder after making folders or writing a file.
-/

namespace DbSchema

/-- Where a path begins. -/
inductive Base
  /-- At the working folder. -/
  | here
  | root
  /-- At the root, written with two slashes. -/
  | doubleRoot
deriving DecidableEq, Repr, Inhabited

/-- What is written for the beginning of a path. -/
def Base.text : Base → String
  | here => ""
  | root => "/"
  | doubleRoot => "//"

/-- A path: the names that lead from where it begins to a place. -/
structure Path where
  base : Base
  parts : List String
deriving DecidableEq, Repr, Inhabited

namespace Path

/-- Where the path that a text denotes begins: more than two slashes count as one. -/
def baseOf (s : String) : Base :=
  match (s.toList.takeWhile (· == '/')).length with
  | 0 => .here
  | 2 => .doubleRoot
  | _ => .root

/-- The path that a text denotes. -/
def ofText (s : String) : Path :=
  ⟨baseOf s, (Text.splitOn '/' s).filter fun part => part != "" && part != "."⟩

/-- The text of a path. -/
def text (p : Path) : String :=
  if p.base = .here ∧ p.parts.isEmpty then "." else p.base.text ++ "/".intercalate p.parts

/-- The path of what a text denotes inside a folder. -/
def child (p : Path) (name : String) : Path :=
  let q := ofText name
  if q.base = .here then ⟨p.base, p.parts ++ q.parts⟩ else q

/-- The path of the folder that holds a place. -/
def parent (p : Path) : Path := ⟨p.base, p.parts.dropLast⟩

/-- The last name of a path from its last point on, unless that begins or ends the name. -/
def suffix (p : Path) : String :=
  let name := ((p.parts.getLast?).getD "").toList
  let ending := (name.reverse.takeWhile (· != '.')).reverse
  if ending.isEmpty ∨ name.length ≤ ending.length + 1 then "" else String.ofList ('.' :: ending)

end Path

/-- What stands at a place. -/
inductive Entry
  | file (text : String)
  | folder
deriving DecidableEq, Repr, Inhabited

/-- The files and folders of a world under the names that lead to them from its root, and the names
that lead to the working folder. -/
structure Folder where
  entries : List (List String × Entry) := []
  here : List String := []
deriving Repr, Inhabited

namespace Folder

/-- A world with the given files and folders inside a working folder. -/
def ofEntries (here : List String) (entries : List (Path × Entry)) : Folder :=
  ⟨entries.map fun e => (here ++ e.1.parts, e.2), here⟩

/-- What stands under the given names: every entry makes folders of the names before its last. -/
def at? (d : Folder) (names : List String) : Option Entry :=
  if names.isPrefixOf d.here then some .folder
  else
    match d.entries.find? (·.1 == names) with
    | some e => some e.2
    | none => if d.entries.any fun e => names.isPrefixOf e.1 then some .folder else none

/-- The folder with an entry put under the given names. -/
def put (d : Folder) (names : List String) (e : Entry) : Folder :=
  { d with entries := d.entries.filter (·.1 != names) ++ [(names, e)] }

/-- The names that one more name leads to. -/
def step (names : List String) (name : String) : List String :=
  if name = ".." then names.dropLast else names ++ [name]

/-- The greatest number of bytes in a name. -/
def maxName : Nat := 255

/-- Follows names from a folder; everything before the last name must be a folder. -/
def follow (d : Folder) (place : List String) : List String → Except Fault (List String)
  | [] => .ok place
  | name :: r =>
    let next := step place name
    if maxName < name.utf8ByteSize then .error .longName
    else if r.isEmpty then .ok next
    else
      match d.at? next with
      | some .folder => follow d next r
      | some (.file _) => .error .notFolder
      | none => .error .noSuchFolder

/-- The names from which a path is followed. -/
def start (d : Folder) (p : Path) : List String := if p.base = .here then d.here else []

/-- The greatest number of bytes in the text of a path. -/
def maxPath : Nat := 4095

/-- What keeps a path from being followed at all. -/
def pathFault? (p : Path) : Option Fault :=
  if p.parts.any fun name => name.toList.contains (Char.ofNat 0) then some .impossible
  else if maxPath < p.text.utf8ByteSize then some .longName
  else none

/-- The names that a path leads to. -/
def resolve (d : Folder) (p : Path) : Except Fault (List String) :=
  match pathFault? p with
  | some f => .error f
  | none => d.follow (d.start p) p.parts

/-- What stands at a path. -/
def entry (d : Folder) (p : Path) : Except Fault Entry := do
  match d.at? (← d.resolve p) with
  | some e => return e
  | none => throw .noSuchFolder

/-- The names directly inside a folder, in ascending order. -/
def names (d : Folder) (folder : List String) : List String :=
  let inside := d.entries.filterMap fun e =>
    if folder.isPrefixOf e.1 then e.1[folder.length]? else none
  (inside.eraseDups).mergeSort fun a b => decide (a ≤ b)

/-- The folder after making the folders that the names lead through. -/
def make (d : Folder) (folder : List String) : List String → Except Fault Folder
  | [] => .ok d
  | name :: r =>
    let next := step folder name
    match d.at? next with
    | some .folder => make d next r
    | some (.file _) => .error (if r.isEmpty then .fileInTheWay else .notFolder)
    | none =>
      if maxName < name.utf8ByteSize then .error .longName else make (d.put next .folder) next r

/-- The folder after making all folders on a path. -/
def makeFolders (d : Folder) (p : Path) : Except Fault Folder :=
  match pathFault? p with
  | some f => .error f
  | none => d.make (d.start p) p.parts

/-- The folder after writing a file. -/
def write (d : Folder) (p : Path) (text : String) : Except Fault Folder := do
  let names ← d.resolve p
  match d.at? names with
  | some .folder => throw .isFolder
  | _ => return d.put names (.file text)

/-- The files below the working folder whose text differs from the one in an earlier state, with
the names that lead to them from there. -/
def changedSince (old : Folder) (d : Folder) : List (List String × String) :=
  d.entries.filterMap fun e =>
    match e.2 with
    | .file text =>
      if old.at? e.1 = some (.file text) ∨ !d.here.isPrefixOf e.1 then none
      else some (e.1.drop d.here.length, text)
    | .folder => none

end Folder

end DbSchema
