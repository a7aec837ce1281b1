import DbSchema.Number.Shortest
import DbSchema.Value.Basic
import DbSchema.Yaml.Failure
import DbSchema.Yaml.Tag

/-!
# Scalars as values

The value that the text of a scalar denotes under its tag.  Numbers may be written in base two,
eight, ten, sixteen and sixty.

## Main definitions

* `readInt`, `readFloat`, `readTimestamp`, `readBinary` — the single kinds.
* `readScalar` — the value of a scalar.
-/

namespace DbSchema.Yaml

open Number Text

/-- A text without the underscores. -/
def dropLines (s : String) : List Char := s.toList.filter (· != '_')

/-- The value of an integer that some reader gives, or a fault. -/
def orImpossible (n : Option Int) : Except Failure Int :=
  match n with
  | some n => .ok n
  | none => faulty .impossible

/-- The number that base-sixty places denote, the most significant first. -/
def ofSixties (places : List Int) : Int := places.foldl (fun n d => n * 60 + d) 0

/-- An unsigned integer. -/
def readUnsigned (cs : List Char) : Except Failure Int :=
  match cs with
  | ['0'] => .ok 0
  | '0' :: 'b' :: r => orImpossible (readRadix? 2 (String.ofList r))
  | '0' :: 'x' :: r => orImpossible (readRadix? 16 (String.ofList r))
  | '0' :: _ => orImpossible (readRadix? 8 (String.ofList cs))
  | [] => faulty .position
  | cs =>
    if cs.contains ':' then
      orImpossible <|
        ((splitChars ':' cs).mapM fun part => readInteger? (String.ofList part)).map ofSixties
    else orImpossible (readInteger? (String.ofList cs))

/-- An integer with an optional sign. -/
def readInt (s : String) : Except Failure Int :=
  match dropLines s with
  | [] => faulty .position
  | '-' :: r => (readUnsigned r).map (- ·)
  | '+' :: r => readUnsigned r
  | cs => readUnsigned cs

/-- The number that base-sixty places denote, the last place first, rounding after every step.
`unit` is what the first place counts; one that is no double is a fault. -/
def floatOfSixties (total : Binary64) (unit : Nat) : List Binary64 → Except Failure Binary64
  | [] => .ok total
  | d :: r =>
    match Binary64.ofNat unit with
    | .infinite _ => faulty .tooLarge
    | u => floatOfSixties (total.add (d.mul u)) (unit * 60) r

/-- An unsigned floating-point number. -/
def readUnsignedFloat (cs : List Char) : Except Failure Binary64 :=
  let s := String.ofList cs
  if s = ".inf" then .ok (.infinite false)
  else if s = ".nan" then .ok .nan
  else
    match (splitChars ':' cs).mapM fun part => Binary64.ofText? (String.ofList part) with
    | none => faulty .impossible
    | some [x] => .ok x
    | some parts => floatOfSixties (.finite false 0 0) 1 parts.reverse

/-- A floating-point number with an optional sign. -/
def readFloat (s : String) : Except Failure Binary64 :=
  match (dropLines s).map Char.toLower with
  | [] => faulty .position
  | '-' :: r => (readUnsignedFloat r).map Binary64.neg
  | '+' :: r => readUnsignedFloat r
  | cs => readUnsignedFloat cs

/-- The microseconds that the digits of a fraction denote. -/
def microseconds (ds : List Char) : Nat :=
  let six := ds.take 6
  digitsValue (six ++ List.replicate (6 - six.length) '0')

/-- A date, or a date with a time. -/
def readTimestamp (s : String) : Except Failure Value :=
  match stamp? (dropFinalBreak s) with
  | none => faulty .notADate
  | some stamp =>
    let date : Date := ⟨stamp.year, stamp.month, stamp.day⟩
    match stamp.time with
    | none => if date.valid then .ok (.date date .own) else faulty .impossible
    | some (hour, minute, second, fraction, zone) =>
      let t : DateTime := ⟨date, hour, minute, second, microseconds fraction, zone⟩
      if t.valid then .ok (.datetime t .own) else faulty .impossible

/-- The value of a character of base sixty-four. -/
def sixtyFourDigit? (c : Char) : Option Nat :=
  if c.isUpper then some (c.toNat - 65)
  else if c.isLower then some (c.toNat - 71)
  else if c.isDigit then some (c.toNat + 4)
  else if c = '+' then some 62
  else if c = '/' then some 63
  else none

/-- The bytes of a base-sixty-four text.  `held` is the value of the digits of an unfinished group
and `place` their number; characters outside the alphabet are passed over. -/
def bytesOf (held place pads : Nat) : List Char → Option (List UInt8)
  | [] => if place = 0 then some [] else none
  | c :: r =>
    if c = '=' then
      if 2 ≤ place then
        if 4 ≤ place + pads + 1 then some [] else bytesOf held place (pads + 1) r
      else bytesOf held place pads r
    else
      match sixtyFourDigit? c with
      | none => bytesOf held place pads r
      | some d =>
        match place with
        | 0 => bytesOf d 1 0 r
        | 1 => (bytesOf (d % 16) 2 0 r).map (UInt8.ofNat (held * 4 + d / 16) :: ·)
        | 2 => (bytesOf (d % 4) 3 0 r).map (UInt8.ofNat (held * 16 + d / 4) :: ·)
        | _ => (bytesOf 0 0 0 r).map (UInt8.ofNat (held * 64 + d) :: ·)

/-- The bytes that a base-sixty-four text denotes. -/
def readBinary (s : String) : Except Failure Value :=
  if s.toList.all (·.toNat < 0x80) then
    match bytesOf 0 0 0 s.toList with
    | some bs => .ok (.bytes bs)
    | none => malformed
  else malformed

/-- A truth value. -/
def readBool (s : String) : Except Failure Value :=
  let word := lower s
  if trueWords.contains word then .ok (.bool true)
  else if falseWords.contains word then .ok (.bool false)
  else faulty (.unknownWord word)

/-- The value of a scalar under its tag. -/
def readScalar (tag : Tag) (s : String) : Except Failure Value :=
  match tag with
  | .null => .ok .null
  | .bool => readBool s
  | .int => (readInt s).map .int
  | .float => (readFloat s).map .float
  | .binary => readBinary s
  | .timestamp => readTimestamp s
  | .str => .ok (.text s)
  | _ => malformed

end DbSchema.Yaml
