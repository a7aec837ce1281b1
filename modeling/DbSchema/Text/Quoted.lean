import DbSchema.Number.Integer
import DbSchema.Text.Printable

/-!
# Quoted text

How a text is shown inside a message: between quotes, with everything that cannot be seen written
as an escape.

## Main definitions

* `quote` — the quoted form of a text.
* `quoteBytes` — the quoted form of a string of bytes.
-/

namespace DbSchema.Text

open Number

/-- The escape of a character by its code point, with as many digits as it needs. -/
def codeEscape (n : Nat) : List Char :=
  if n ≤ 0xFF then '\\' :: 'x' :: padZeros 2 (hexLower n)
  else if n ≤ 0xFFFF then '\\' :: 'u' :: padZeros 4 (hexLower n)
  else '\\' :: 'U' :: padZeros 8 (hexLower n)

/-- One character between the given quotes. -/
def quoteChar (mark : Char) (c : Char) : List Char :=
  if c = mark ∨ c = '\\' then ['\\', c]
  else if c = '\n' then ['\\', 'n']
  else if c = '\r' then ['\\', 'r']
  else if c = '\t' then ['\\', 't']
  else if isPrintable c then [c]
  else codeEscape c.toNat

/-- The quote to use: a single one unless the text holds single quotes and no double ones. -/
def quoteMark (cs : List Char) : Char :=
  if cs.contains '\'' && !cs.contains '"' then '"' else '\''

/-- A text between quotes. -/
def quote (s : String) : String :=
  let cs := s.toList
  let mark := quoteMark cs
  String.ofList (mark :: cs.flatMap (quoteChar mark) ++ [mark])

/-- One byte between the given quotes. -/
def quoteByte (mark : Char) (b : UInt8) : List Char :=
  let c := Char.ofNat b.toNat
  if 0x7F ≤ b.toNat then codeEscape b.toNat else quoteChar mark c

/-- A string of bytes between quotes, marked as such. -/
def quoteBytes (bs : List UInt8) : String :=
  let mark := quoteMark (bs.map fun b => Char.ofNat b.toNat)
  String.ofList ('b' :: mark :: bs.flatMap (quoteByte mark) ++ [mark])

end DbSchema.Text
