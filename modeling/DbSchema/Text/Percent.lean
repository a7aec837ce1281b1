import DbSchema.Number.Integer

/-!
# Percent escapes

A byte may be written as a percent sign and two hexadecimal digits.  The bytes of a run of ASCII
characters and escapes are read as UTF-8, where everything that is no character becomes the
replacement character.

## Main definitions

* `decodeUtf8` — the characters that bytes denote.
* `percentBytes` — the bytes of ASCII characters and escapes.
* `percentDecode` — a text without its escapes.
-/

namespace DbSchema.Text

open Number

/-- The character that stands for what cannot be read. -/
def replacement : Char := Char.ofNat 0xFFFD

/-- What the first byte of a character says: how many bytes follow, the value of its own bits, and
the range of the second byte. -/
structure LeadByte where
  following : Nat
  bits : Nat
  least : Nat
  most : Nat
deriving DecidableEq, Repr, Inhabited

/-- What a byte says as the first byte of a character of more than one byte. -/
def leadByte? (b : Nat) : Option LeadByte :=
  if 0xC2 ≤ b ∧ b ≤ 0xDF then some ⟨1, b - 0xC0, 0x80, 0xBF⟩
  else if b = 0xE0 then some ⟨2, 0, 0xA0, 0xBF⟩
  else if b = 0xED then some ⟨2, 0xD, 0x80, 0x9F⟩
  else if 0xE1 ≤ b ∧ b ≤ 0xEF then some ⟨2, b - 0xE0, 0x80, 0xBF⟩
  else if b = 0xF0 then some ⟨3, 0, 0x90, 0xBF⟩
  else if b = 0xF4 then some ⟨3, 4, 0x80, 0x8F⟩
  else if 0xF1 ≤ b ∧ b ≤ 0xF3 then some ⟨3, b - 0xF0, 0x80, 0xBF⟩
  else none

/-- The character that the following bytes complete, and how many of them belong to it; without a
character those that could still have belonged to one. -/
def completeChar (value least most : Nat) : Nat → List Nat → Option Char × Nat
  | 0, _ => (some (Char.ofNat value), 0)
  | _ + 1, [] => (none, 0)
  | n + 1, b :: r =>
    if least ≤ b ∧ b ≤ most then
      let (c, used) := completeChar (value * 64 + (b - 0x80)) 0x80 0xBF n r
      (c, used + 1)
    else (none, 0)

/-- The characters that bytes denote; `fuel` bounds their number. -/
def decodeBytes : Nat → List Nat → List Char
  | 0, _ => []
  | _, [] => []
  | fuel + 1, b :: r =>
    if b < 0x80 then Char.ofNat b :: decodeBytes fuel r
    else
      match leadByte? b with
      | none => replacement :: decodeBytes fuel r
      | some lead =>
        let (c, used) := completeChar lead.bits lead.least lead.most lead.following r
        c.getD replacement :: decodeBytes fuel (r.drop used)

/-- The characters that bytes denote. -/
def decodeUtf8 (bytes : List Nat) : List Char := decodeBytes bytes.length bytes

/-- The bytes of ASCII characters and escapes; a percent sign without two digits stands for
itself. -/
def percentBytes : List Char → List Nat
  | '%' :: a :: b :: r =>
    match hexDigit? a, hexDigit? b with
    | some x, some y => (x * 16 + y) :: percentBytes r
    | _, _ => 0x25 :: percentBytes (a :: b :: r)
  | c :: r => c.toNat :: percentBytes r
  | [] => []

/-- Whether a character is an ASCII character. -/
def isAscii (c : Char) : Bool := decide (c.toNat < 0x80)

/-- The characters without their escapes.  `run` holds the ASCII characters before, in reverse. -/
def percentRuns (run : List Char) : List Char → List Char
  | [] => decodeUtf8 (percentBytes run.reverse)
  | c :: r =>
    if isAscii c then percentRuns (c :: run) r
    else decodeUtf8 (percentBytes run.reverse) ++ c :: percentRuns [] r

/-- A text without its escapes. -/
def percentDecode (s : String) : String := String.ofList (percentRuns [] s.toList)

end DbSchema.Text
