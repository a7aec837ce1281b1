import DbSchema.Value.Integer

/-!
# Declared types

A declared type is a text such as `VARCHAR(255)` or `DECIMAL(10, 2) UNSIGNED`: a base, sizes in
parentheses, and a suffix.

## Main definitions

* `TypeParts`, `typeParts?` — base, sizes and suffix of a declared type.
* `splitType` — the type without its sizes, and the sizes.
-/

namespace DbSchema.Source

open Text

/-- The parts of a declared type with sizes. -/
structure TypeParts where
  base : List Char
  sizes : List Char
  suffix : List Char
deriving DecidableEq, Repr, Inhabited

/-- Whether a character may stand between the parentheses of a size. -/
def isSizeChar (c : Char) : Bool := isDecimalDigit c || isBlank c || c == ','

/-- What a part of a declared type is without its blanks, or its last character when it has nothing
else; no part is empty. -/
def partOf (stripped cs : List Char) : Option (List Char) :=
  match stripped with
  | [] => cs.getLast?.map fun c => [c]
  | part => some part

/-- The suffix behind the parentheses without the blanks before it; it must not hold a line feed,
except as its last character, which is left out. -/
def suffixOf (cs : List Char) : Option (List Char) :=
  let rest := trimStart cs
  let line := rest.takeWhile (· != '\n')
  let after := rest.dropWhile (· != '\n')
  if after.isEmpty ∨ after = ['\n'] then some line else none

/-- The parts of a declared type, if it has sizes.  The base is trimmed, and the sizes are without
the blanks before them. -/
def typeParts? (cs : List Char) : Option TypeParts := do
  let before := cs.takeWhile (· != '(')
  let inside := (cs.dropWhile (· != '(')).drop 1
  let sizes := inside.takeWhile isSizeChar
  match inside.dropWhile isSizeChar with
  | ')' :: after =>
    let base ← partOf (trimChars before) before
    let sizes ← partOf (trimStart sizes) sizes
    let suffix ← suffixOf after
    return ⟨base, sizes, suffix⟩
  | _ => none

/-- The sizes between the commas of a list; blank pieces do not count. -/
def sizesOf : List (List Char) → Except Fault (List Int)
  | [] => .ok []
  | piece :: r =>
    if (trimChars piece).isEmpty then sizesOf r
    else
      let s := String.ofList piece
      match integerOfText (.text s) s with
      | .error f => .error f
      | .ok n => (sizesOf r).map (n :: ·)

/-- The type without its sizes. -/
def TypeParts.name (p : TypeParts) : String :=
  if p.suffix.isEmpty then String.ofList p.base
  else String.ofList (trimChars (p.base ++ ' ' :: p.suffix))

/-- A declared type taken apart: the type and its sizes. -/
def splitText (declared : String) : Except Fault (String × List Int) :=
  match typeParts? declared.toList with
  | none => .ok (trim declared, [])
  | some p =>
    match sizesOf (splitChars ',' p.sizes) with
    | .error f => .error f
    | .ok sizes => .ok (p.name, sizes)

/-- What a database reports as the type of a column, taken apart; everything that counts as false
is no type. -/
def splitType (declared : Value) : Except Fault (String × List Int) :=
  if !declared.truthy then .ok ("", [])
  else
    match declared with
    | .text s => splitText s
    | v => .error (.notText v)

end DbSchema.Source
