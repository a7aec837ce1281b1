import DbSchema.Text.CaseMap

/-!
# Upper and lower case

Full case mapping: one character may become several, and the lower case of a capital sigma hangs
on its neighbours.

## Main definitions

* `upper`, `lower` — the case mappings of a text.
* `endsWord` — whether a sigma at this place closes a word.
-/

namespace DbSchema.Text

/-- Whether a code point lies in one of the ranges. -/
def inRanges (ranges : Array (Nat × Nat)) (n : Nat) : Bool :=
  ranges.any fun (lo, hi) => decide (lo ≤ n ∧ n ≤ hi)

/-- One character mapped by the expansions first and the shifted runs after them. -/
def mapCase (expansions : Array (Nat × List Nat)) (ranges : Array CaseRange) (c : Char) :
    List Char :=
  let n := c.toNat
  match expansions.find? fun e => e.1 == n with
  | some e => e.2.map Char.ofNat
  | none =>
    match ranges.find? fun r => r.holds n with
    | some r => [Char.ofNat (n + r.shift).toNat]
    | none => [c]

/-- The upper case of one character. -/
def upperChar (c : Char) : List Char :=
  if c.toNat < 0x80 then [c.toUpper] else mapCase upperExpansions upperRanges c

/-- The upper case of a list of characters. -/
def upperChars (cs : List Char) : List Char := cs.flatMap upperChar

/-- The upper case of a text. -/
def upper (s : String) : String := String.ofList (upperChars s.toList)

/-- Whether the first character that is not passed over is a letter with case. -/
def nextIsCased : List Char → Bool
  | [] => false
  | c :: r =>
    if inRanges ignorableRanges c.toNat then nextIsCased r else inRanges casedRanges c.toNat

/-- Whether a sigma stands at the end of a word: after a letter with case and not before one.
`before` is what precedes it, nearest first. -/
def endsWord (before after : List Char) : Bool := nextIsCased before && !nextIsCased after

/-- The lower case of one character with the characters before it (nearest first) and after. -/
def lowerChar (before : List Char) (c : Char) (after : List Char) : List Char :=
  if c.toNat < 0x80 then [c.toLower]
  else if c.toNat = 0x3A3 then
    if endsWord before after then [Char.ofNat 0x3C2] else [Char.ofNat 0x3C3]
  else mapCase lowerExpansions lowerRanges c

/-- The lower case of a list of characters that follows `before` (nearest first). -/
def lowerFrom (before : List Char) : List Char → List Char
  | [] => []
  | c :: r => lowerChar before c r ++ lowerFrom (c :: before) r

/-- The lower case of a text. -/
def lower (s : String) : String := String.ofList (lowerFrom [] s.toList)

end DbSchema.Text
