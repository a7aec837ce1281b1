import DbSchema.Model.Slots
import DbSchema.Text.Blank
import DbSchema.Text.Letters

/-!
# Files of sections

A settings file is a list of sections, each a header in brackets and lines of options with their
values.  A value goes on in the lines below it that are indented further than its own.  Lines that
begin with a number sign or a semicolon are comments.

## Main definitions

* `Options`, `Sections` — the options of a section, and all sections.
* `SectionsFault` — why a file cannot be read.
* `Reading.step` — what one line does.
* `Sections.ofText` — the sections of a text.
-/

namespace DbSchema.Settings

open Text

/-- Why the options of a file cannot be read. -/
inductive SectionsFault
  /-- An option stands before the first header. -/
  | noHeader
  | repeatedSection (name : String)
  | repeatedOption (section? name : String)
  /-- Some line is neither a header nor an option. -/
  | unreadable
  /-- A reference to another option is not written as one. -/
  | badReference
  | unknownReference (name : String)
  /-- References lead through too many options. -/
  | endlessReference
deriving DecidableEq, Repr, Inhabited

/-- The options of a section with their values. -/
abbrev Options := List (String × String)

/-- The sections of a file. -/
structure Sections where
  entries : List (String × Options)
deriving Repr, Inhabited

/-- The section whose options all others have too, unless they have their own. -/
def commonSection : String := "DEFAULT"

/-! ### Lines -/

/-- The characters before the last occurrence of one, if it occurs. -/
def beforeLast (sep : Char) (cs : List Char) : Option (List Char) :=
  match cs.reverse.dropWhile (· != sep) with
  | [] => none
  | _ :: r => some r.reverse

/-- The name in a header: everything between the bracket at the front and the last closing one. -/
def header? : List Char → Option String
  | '[' :: r =>
    match beforeLast ']' r with
    | none | some [] => none
    | some name => some (String.ofList name)
  | _ => none

/-- Whether a character ends the name of an option. -/
def isDelimiter (c : Char) : Bool := c == '=' || c == ':'

/-- The name and the value of an option: the first delimiter separates them. -/
def splitOption? (cs : List Char) : Option (List Char × List Char) :=
  match cs.dropWhile fun c => !isDelimiter c with
  | [] => none
  | _ :: value => some (trimEnd (cs.takeWhile fun c => !isDelimiter c), trimChars value)

/-! ### Reading -/

/-- The state of reading a file line by line. -/
structure Reading where
  /-- The sections so far, with the lines of their values. -/
  entries : List (String × List (String × List String)) := []
  /-- The section that is open. -/
  current : Option String := none
  /-- The option that is open, if any. -/
  openOption : Option String := none
  /-- How far the line is indented that opened it. -/
  indent : Nat := 0
  /-- Whether some line could not be understood. -/
  broken : Bool := false
deriving Repr, Inhabited

namespace Reading

/-- The options of a section so far. -/
def optionsOf (r : Reading) (name : String) : List (String × List String) :=
  (Keyed.find? (· == ·) name r.entries).getD []

/-- The value of the open option with one more line. -/
def continueValue (r : Reading) (line : String) : Reading :=
  match r.current, r.openOption with
  | some current, some option =>
    let options := r.optionsOf current
    let value := (Keyed.find? (· == ·) option options).getD []
    { r with entries :=
        Keyed.put (· == ·) current (Keyed.put (· == ·) option (value ++ [line]) options) r.entries }
  | _, _ => r

/-- Opens a section; only the common one may be opened twice. -/
def openSection (r : Reading) (name : String) : Except SectionsFault Reading :=
  let known := (Keyed.find? (· == ·) name r.entries).isSome
  if known ∧ name ≠ commonSection then .error (.repeatedSection name)
  else
    .ok { r with
      entries := Keyed.put (· == ·) name (r.optionsOf name) r.entries
      current := some name
      openOption := none }

/-- Opens an option of the open section.  An option without a name takes no further lines. -/
def openOptionOf (r : Reading) (current : String) (name value : List Char) :
    Except SectionsFault Reading :=
  let key := lower (String.ofList name)
  let options := r.optionsOf current
  if (Keyed.find? (· == ·) key options).isSome then .error (.repeatedOption current key)
  else
    .ok { r with
      entries := Keyed.put (· == ·) current (options ++ [(key, [String.ofList value])]) r.entries
      openOption := if key = "" then none else some key
      broken := r.broken || name.isEmpty }

/-- A line that is neither blank nor a comment nor part of a value. -/
def openLine (r : Reading) (line : List Char) : Except SectionsFault Reading :=
  match header? line, r.current with
  | some name, _ => r.openSection name
  | none, none => .error .noHeader
  | none, some current =>
    match splitOption? line with
    | some (name, value) => r.openOptionOf current name value
    | none => .ok { r with broken := true }

/-- Whether a line is a comment. -/
def isComment : List Char → Bool
  | '#' :: _ | ';' :: _ => true
  | _ => false

/-- What one line does. -/
def step (r : Reading) (line : List Char) : Except SectionsFault Reading :=
  let content := trimChars line
  let indent := (line.takeWhile isBlank).length
  if content.isEmpty then .ok (r.continueValue "")
  else if isComment content then .ok r
  else if r.openOption.isSome ∧ r.indent < indent then
    .ok (r.continueValue (String.ofList content))
  else { r with indent }.openLine content

/-- The value of an option: its lines without the blanks at the end. -/
def valueOf (lines : List String) : String :=
  String.ofList (trimEnd ("\n".intercalate lines).toList)

/-- The sections that were read. -/
def finish (r : Reading) : Except SectionsFault Sections :=
  if r.broken then .error .unreadable
  else .ok ⟨r.entries.map fun e => (e.1, e.2.map fun o => (o.1, valueOf o.2))⟩

end Reading

namespace Sections

/-- The sections of a text. -/
def ofText (s : String) : Except SectionsFault Sections := do
  ((← (lines s).foldlM Reading.step {})).finish

/-- The names of the sections, without the common one. -/
def names (f : Sections) : List String := (f.entries.map (·.1)).filter (· != commonSection)

/-- Whether a section can be asked for; the common one always can. -/
def has (f : Sections) (name : String) : Bool := name == commonSection || f.names.contains name

/-- The options of a section, its own before the common ones. -/
def optionsOf (f : Sections) (name : String) : Options :=
  let at? (key : String) : Options := (Keyed.find? (· == ·) key f.entries).getD []
  at? name ++ at? commonSection

end Sections

end DbSchema.Settings
