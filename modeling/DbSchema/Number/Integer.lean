import DbSchema.Text.Blank
import DbSchema.Text.Digit

/-!
# Reading integers

An integer may be written with the decimal digits of any script, with single underscores between
digits, with one sign, and with blanks around it.

## Main definitions

* `digitRun?` — digits with single underscores between them.
* `readInteger?` — an integer in base ten, of at most `maxDigits` digits.
* `readRadix?` — an integer in base two, eight or sixteen, with or without the base's mark.
-/

namespace DbSchema.Number

open DbSchema.Text

/-- The most decimal digits that an integer may be written with. -/
def maxDigits : Nat := 4300

/-- The blanks that may stand around a number: white space without the information separators. -/
def isNumberBlank (c : Char) : Bool :=
  isBlank c && !decide (0x1C ≤ c.toNat ∧ c.toNat ≤ 0x1F)

/-- The characters of a number without the blanks around them. -/
def trimNumber (cs : List Char) : List Char :=
  ((cs.dropWhile isNumberBlank).reverse.dropWhile isNumberBlank).reverse

/-- The values of one or more digits with single underscores between them. -/
def digitRun? (digit? : Char → Option Nat) : List Char → Option (List Nat)
  | [] => none
  | c :: r =>
    match digit? c with
    | none => none
    | some d =>
      match r with
      | [] => some [d]
      | '_' :: r' => (digitRun? digit? r').map (d :: ·)
      | r => (digitRun? digit? r).map (d :: ·)

/-- The number that a list of digits denotes, most significant digit first. -/
def ofDigits (base : Nat) (ds : List Nat) : Nat := ds.foldl (fun n d => n * base + d) 0

/-- Whether the characters carry a minus sign, and the characters after the sign. -/
def splitSign : List Char → Bool × List Char
  | '-' :: r => (true, r)
  | '+' :: r => (false, r)
  | cs => (false, cs)

/-- A natural number with a sign in front. -/
def signed (negative : Bool) (n : Nat) : Int := if negative then -(n : Int) else n

/-- The sign and the digits of an integer in base ten, however many there are. -/
def readDigits? (s : String) : Option (Bool × List Nat) :=
  let (negative, cs) := splitSign (trimNumber s.toList)
  (digitRun? decimalDigit? cs).map fun ds => (negative, ds)

/-- An integer in base ten. -/
def readInteger? (s : String) : Option Int :=
  match readDigits? s with
  | none => none
  | some (negative, ds) =>
    if ds.length ≤ maxDigits then some (signed negative (ofDigits 10 ds)) else none

/-- The value of a digit in a base of at most sixteen. -/
def radixDigit? (base : Nat) (c : Char) : Option Nat :=
  let value :=
    match decimalDigit? c with
    | some d => some d
    | none =>
      let n := c.toLower.toNat
      if 97 ≤ n ∧ n ≤ 102 then some (n - 87) else none
  value.filter (· < base)

/-- The letter that marks a base after a leading zero. -/
def radixMark (base : Nat) : Option Char :=
  if base = 2 then some 'b' else if base = 8 then some 'o' else if base = 16 then some 'x' else none

/-- The digits after the mark of the base, when there is one. -/
def dropRadixMark (base : Nat) : List Char → List Char
  | '0' :: m :: r =>
    if some m.toLower = radixMark base then
      match r with
      | '_' :: r' => r'
      | r => r
    else '0' :: m :: r
  | cs => cs

/-- An integer in base two, eight or sixteen. -/
def readRadix? (base : Nat) (s : String) : Option Int :=
  let (negative, cs) := splitSign (trimNumber s.toList)
  (digitRun? (radixDigit? base) (dropRadixMark base cs)).map fun ds =>
    signed negative (ofDigits base ds)

/-- The value of a hexadecimal digit. -/
def hexDigit? (c : Char) : Option Nat :=
  if c.toNat < 0x80 then radixDigit? 16 c else none

/-- A number written with hexadecimal digits in lower case. -/
def hexLower (n : Nat) : List Char := Nat.toDigits 16 n

/-- A list of digits filled up with zeros on the left. -/
def padZeros (width : Nat) (cs : List Char) : List Char :=
  List.replicate (width - cs.length) '0' ++ cs

end DbSchema.Number
