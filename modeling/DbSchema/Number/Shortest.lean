import DbSchema.Number.Binary64
import DbSchema.Number.Integer
import DbSchema.Text.Letters

/-!
# Decimal text of floating-point numbers

A number is written with the fewest digits that read back to it, and of those with the nearest.
Numbers from `10 ^ -4` up to `10 ^ 16` are written positionally, all others with an exponent.

## Main definitions

* `Binary64.shortest` — the digits and the power of ten of the first one.
* `Binary64.toText` — the written form.
* `Binary64.ofText?` — the number that a decimal text denotes.
-/

namespace DbSchema.Binary64

open DbSchema.Number DbSchema.Text

/-- The greatest power of ten that is at most the ratio of two positive numbers. -/
def leadingTen (num den : Nat) : Int :=
  let guess : Int := ((Nat.toDigits 10 num).length : Int) - ((Nat.toDigits 10 den).length : Int)
  let fits := if 0 ≤ guess then den * tenTo guess.toNat ≤ num else den ≤ num * tenTo (-guess).toNat
  if fits then guess else guess - 1

/-- The decimal `digits · 10 ^ power` as a ratio. -/
def decimalRatio (digits : Nat) (power : Int) : Nat × Nat :=
  if 0 ≤ power then (digits * tenTo power.toNat, 1) else (digits, tenTo (-power).toNat)

/-- Whether `digits · 10 ^ power` reads back to the positive number `m · 2 ^ e`. -/
def readsBack (m : Nat) (e : Int) (digits : Nat) (power : Int) : Bool :=
  let (num, den) := decimalRatio digits power
  ofRatio false num den == finite false m e

/-- The neighbour of `m · 2 ^ e` on the grid of multiples of `10 ^ power` that reads back to it,
the nearer one if both do. -/
def onGrid? (m : Nat) (e : Int) (power : Int) : Option Nat :=
  let (a, b) := ratio m e
  let (num, den) := if 0 ≤ power then (a, b * tenTo power.toNat) else (a * tenTo (-power).toNat, b)
  let low := num / den
  let rest := num % den
  match readsBack m e low power, readsBack m e (low + 1) power with
  | true, true =>
    if 2 * rest < den then some low
    else if den < 2 * rest then some (low + 1)
    else if low % 2 = 0 then some low else some (low + 1)
  | true, false => some low
  | false, true => some (low + 1)
  | false, false => none

/-- The first grid with a decimal that reads back, trying `digits` digits and then more. -/
def searchGrid (m : Nat) (e : Int) (lead : Int) : Nat → Nat → Nat × Int
  | 0, _ => (m, 0)
  | fuel + 1, digits =>
    let power := lead - digits + 1
    match onGrid? m e power with
    | some d => (d, power)
    | none => searchGrid m e lead fuel (digits + 1)

/-- The digits and the power of ten of the shortest decimal that reads back to the positive
number `m · 2 ^ e`. -/
def shortest (m : Nat) (e : Int) : Nat × Int :=
  let (num, den) := ratio m e
  searchGrid m e (leadingTen num den) 17 1

/-- The digits without the zeros at the end. -/
def dropTrailingZeros (cs : List Char) : List Char := (cs.reverse.dropWhile (· == '0')).reverse

/-- The written form of the positive number `0.digits · 10 ^ point`. -/
def layout (digits : List Char) (point : Int) : List Char :=
  let n := digits.length
  if -4 < point ∧ point ≤ 16 then
    if point ≤ 0 then '0' :: '.' :: (List.replicate (-point).toNat '0' ++ digits)
    else if (n : Int) ≤ point then digits ++ List.replicate (point.toNat - n) '0' ++ ['.', '0']
    else digits.take point.toNat ++ '.' :: digits.drop point.toNat
  else
    let exponent := point - 1
    let mantissa :=
      match digits with
      | d :: rest@(_ :: _) => d :: '.' :: rest
      | ds => ds
    mantissa ++ 'e' :: (if exponent < 0 then '-' else '+') ::
      padZeros 2 (Nat.toDigits 10 exponent.natAbs)

/-- The written form of a number. -/
def toText : Binary64 → String
  | nan => "nan"
  | infinite s => if s then "-inf" else "inf"
  | finite s m e =>
    let body :=
      if m = 0 then ['0', '.', '0']
      else
        let (d, power) := shortest m e
        let digits := Nat.toDigits 10 d
        layout (dropTrailingZeros digits) (power + digits.length)
    String.ofList (if s then '-' :: body else body)

/-- The values of the digits in front, with single underscores between them, and the rest. -/
def takeDigits : List Char → List Nat × List Char
  | [] => ([], [])
  | c :: r =>
    match decimalDigit? c with
    | none => ([], c :: r)
    | some d =>
      match r with
      | '_' :: e :: r' =>
        if isDecimalDigit e then
          let (ds, rest) := takeDigits (e :: r')
          (d :: ds, rest)
        else ([d], r)
      | r =>
        let (ds, rest) := takeDigits r
        (d :: ds, rest)

/-- The power of ten after the digits: nothing, or an `e` and a signed number. -/
def exponentPart? : List Char → Option Int
  | [] => some 0
  | c :: r =>
    if c = 'e' ∨ c = 'E' then
      let (negative, cs) := splitSign r
      match takeDigits cs with
      | (ds@(_ :: _), []) => some (signed negative (ofDigits 10 ds))
      | _ => none
    else none

/-- The unsigned number that the characters denote. -/
def ofUnsigned? (negative : Bool) (cs : List Char) : Option Binary64 :=
  let word := String.ofList (cs.map Char.toLower)
  if word = "inf" ∨ word = "infinity" then some (infinite negative)
  else if word = "nan" then some nan
  else
    let (whole, rest) := takeDigits cs
    let (fraction, rest) :=
      match rest with
      | '.' :: r => takeDigits r
      | r => ([], r)
    let digits := whole ++ fraction
    if digits.isEmpty then none
    else
      let significant := digits.dropWhile (· == 0)
      (exponentPart? rest).map fun power =>
        ofDecimal negative (ofDigits 10 significant) significant.length (power - fraction.length)

/-- The number that a decimal text denotes. -/
def ofText? (s : String) : Option Binary64 :=
  let (negative, cs) := splitSign (trimNumber s.toList)
  ofUnsigned? negative cs

end DbSchema.Binary64
