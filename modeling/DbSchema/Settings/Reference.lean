import DbSchema.Settings.Sections

/-!
# References between options

A value may refer to other options of its section: the name of an option in parentheses after a
percent sign and before the letter s stands for the value of that option, in which references are
replaced as well.  A percent sign that stands for itself is written twice.

## Main definitions

* `Piece`, `pieces` — what a value is made of.
* `expand` — a value with all references replaced.
-/

namespace DbSchema.Settings

open Text

/-- What a value is made of. -/
inductive Piece
  | plain (c : Char)
  | reference (name : List Char)
  /-- A percent sign that is neither doubled nor the start of a reference. -/
  | bad
deriving DecidableEq, Repr, Inhabited

/-- Where in a piece a value is read. -/
inductive Place
  | outside
  | percent
  | inside (name : List Char)
  | closed (name : List Char)
deriving DecidableEq, Repr, Inhabited

/-- The pieces of a value from a place on; nothing is read after a bad one. -/
def pieces : Place → List Char → List Piece
  | .outside, [] => []
  | _, [] => [.bad]
  | .outside, c :: r => if c = '%' then pieces .percent r else .plain c :: pieces .outside r
  | .percent, c :: r =>
    if c = '%' then .plain '%' :: pieces .outside r
    else if c = '(' then pieces (.inside []) r
    else [.bad]
  | .inside name, c :: r =>
    if c ≠ ')' then pieces (.inside (name ++ [c])) r
    else if name.isEmpty then [.bad]
    else pieces (.closed name) r
  | .closed name, c :: r => if c = 's' then .reference name :: pieces .outside r else [.bad]

/-- The greatest number of options that a reference may lead through. -/
def maxDepth : Nat := 10

/-- The text of pieces, given the text of a value that is referred to. -/
def joinPieces (options : Options) (inner : List Char → Except SectionsFault (List Char)) :
    List Piece → Except SectionsFault (List Char)
  | [] => .ok []
  | .plain c :: r => do return c :: (← joinPieces options inner r)
  | .bad :: _ => .error .badReference
  | .reference name :: r => do
    let key := lower (String.ofList name)
    match Keyed.find? (· == ·) key options with
    | none => .error (.unknownReference key)
    | some value =>
      let text ← inner value.toList
      return text ++ (← joinPieces options inner r)

/-- A value with its references replaced, which may lead through the given number of options. -/
def expandChars (options : Options) : Nat → List Char → Except SectionsFault (List Char)
  | 0, cs => if cs.contains '%' then .error .endlessReference else .ok cs
  | depth + 1, cs => joinPieces options (expandChars options depth) (pieces .outside cs)

/-- A value with its references replaced. -/
def expand (options : Options) (value : String) : Except SectionsFault String := do
  return String.ofList (← expandChars options maxDepth value.toList)

end DbSchema.Settings
