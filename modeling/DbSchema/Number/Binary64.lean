/-!
# Binary floating point

A number of the double format is a sign, a mantissa below `2 ^ 53` and a power of two.  Every
operation computes its exact result as a ratio of natural numbers and rounds once.

## Main definitions

* `Binary64` — not a number, an infinity, or `± mantissa · 2 ^ exponent`.
* `Binary64.ofRatio` — the nearest such number, a tie going to the even mantissa.
* `Binary64.truncate?` — the integer part of a finite number.
* `Binary64.add`, `Binary64.mul` — sum and product of finite numbers.
-/

namespace DbSchema

/-- A number of the double format.  Finite numbers have a mantissa of 53 bits or, at the least
exponent, fewer; zero has exponent zero. -/
inductive Binary64
  | nan
  | infinite (negative : Bool)
  | finite (negative : Bool) (mantissa : Nat) (exponent : Int)
deriving DecidableEq, Repr, Inhabited

namespace Binary64

/-- The least exponent of a finite number. -/
def minExponent : Int := -1074

/-- The greatest exponent of a finite number. -/
def maxExponent : Int := 971

/-- A power of two. -/
def twoTo (n : Nat) : Nat := Nat.pow 2 n

/-- A power of ten. -/
def tenTo (n : Nat) : Nat := Nat.pow 10 n

/-- The quotient rounded to the nearest natural number, a tie going to the even one. -/
def roundQuotient (num den : Nat) : Nat :=
  let q := num / den
  let r := num % den
  if 2 * r < den then q
  else if den < 2 * r then q + 1
  else if q % 2 = 0 then q else q + 1

/-- The greatest power of two that is at most the ratio of two positive numbers. -/
def leadingPower (num den : Nat) : Int :=
  let guess : Int := (Nat.log2 num : Int) - (Nat.log2 den : Int)
  let fits := if 0 ≤ guess then den * twoTo guess.toNat ≤ num else den ≤ num * twoTo (-guess).toNat
  if fits then guess else guess - 1

/-- The number nearest to a ratio. -/
def ofRatio (negative : Bool) (num den : Nat) : Binary64 :=
  if num = 0 then .finite negative 0 0
  else
    let e := max (leadingPower num den - 52) minExponent
    let m := if 0 ≤ e then roundQuotient num (den * twoTo e.toNat)
      else roundQuotient (num * twoTo (-e).toNat) den
    let (m, e) := if m = twoTo 53 then (twoTo 52, e + 1) else (m, e)
    if m = 0 then .finite negative 0 0
    else if maxExponent < e then .infinite negative
    else .finite negative m e

/-- The size of a finite number as numerator and denominator. -/
def ratio (mantissa : Nat) (exponent : Int) : Nat × Nat :=
  if 0 ≤ exponent then (mantissa * twoTo exponent.toNat, 1) else (mantissa, twoTo (-exponent).toNat)

/-- The number `digits · 10 ^ power`, whose first of `length` digits is not zero; powers far outside
the range need no arithmetic. -/
def ofDecimal (negative : Bool) (digits : Nat) (length : Nat) (power : Int) : Binary64 :=
  if digits = 0 then .finite negative 0 0
  else if 400 < power + length then .infinite negative
  else if power + length < -400 then .finite negative 0 0
  else if 0 ≤ power then ofRatio negative (digits * tenTo power.toNat) 1
  else ofRatio negative digits (tenTo (-power).toNat)

/-- The number nearest to a natural number. -/
def ofNat (n : Nat) : Binary64 := ofRatio false n 1

/-- The number with its sign turned. -/
def neg : Binary64 → Binary64
  | nan => nan
  | infinite s => infinite (!s)
  | finite s m e => finite (!s) m e

/-- The integer part of a finite number. -/
def truncate? : Binary64 → Option Int
  | finite s m e =>
    let (num, den) := ratio m e
    some (if s then -((num / den : Nat) : Int) else ((num / den : Nat) : Int))
  | _ => none

/-- Whether a number is neither zero nor negative zero. -/
def isNonzero : Binary64 → Bool
  | finite _ m _ => m != 0
  | _ => true

/-- Whether a number equals an integer. -/
def equalsInt (x : Binary64) (i : Int) : Bool :=
  match x with
  | finite s m e =>
    let (num, den) := ratio m e
    (if s then -(num : Int) else (num : Int)) == i * (den : Int)
  | _ => false

/-- Equality of numbers: not a number differs from itself, and the two zeros agree. -/
def same : Binary64 → Binary64 → Bool
  | nan, _ => false
  | _, nan => false
  | finite s m e, finite s' m' e' => (m == 0 && m' == 0) || (s == s' && m == m' && e == e')
  | infinite s, infinite s' => s == s'
  | _, _ => false

/-- Whether the fraction `num / den` is less than a number. -/
def aboveRatio (x : Binary64) (num : Int) (den : Nat) : Bool :=
  match x with
  | nan => false
  | infinite s => !s
  | finite s m e =>
    let (a, b) := ratio m e
    decide (num * (b : Int) < (if s then -(a : Int) else (a : Int)) * (den : Int))

/-- Whether a number is greater than an integer. -/
def aboveInt (x : Binary64) (i : Int) : Bool := x.aboveRatio i 1

/-- Whether a number is less than another. -/
def less : Binary64 → Binary64 → Bool
  | nan, _ => false
  | infinite s, y => s && y != nan && y != infinite true
  | finite s m e, y =>
    let (a, b) := ratio m e
    y.aboveRatio (if s then -(a : Int) else (a : Int)) b

/-- Whether a number is less than an integer. -/
def belowInt (x : Binary64) (i : Int) : Bool :=
  match x with
  | nan => false
  | infinite s => s
  | finite s m e =>
    let (a, b) := ratio m e
    decide ((if s then -(a : Int) else (a : Int)) < i * (b : Int))

/-- The sum of two numbers; infinities and not a number absorb. -/
def add : Binary64 → Binary64 → Binary64
  | nan, _ => nan
  | _, nan => nan
  | infinite s, infinite t => if s = t then infinite s else nan
  | infinite s, _ => infinite s
  | _, infinite t => infinite t
  | finite s m e, finite t n f =>
    let (a, b) := ratio m e
    let (c, d) := ratio n f
    let left : Int := (if s then -1 else 1) * (a * d : Nat)
    let right : Int := (if t then -1 else 1) * (c * b : Nat)
    let total := left + right
    if total = 0 then finite (s && t) 0 0
    else ofRatio (decide (total < 0)) total.natAbs (b * d)

/-- The product of two numbers. -/
def mul : Binary64 → Binary64 → Binary64
  | nan, _ => nan
  | _, nan => nan
  | finite s m e, finite t n f =>
    let (a, b) := ratio m e
    let (c, d) := ratio n f
    ofRatio (s != t) (a * c) (b * d)
  | x, y => if x.isNonzero && y.isNonzero then infinite (isNegative x != isNegative y) else nan
where
  /-- The sign of a number. -/
  isNegative : Binary64 → Bool
    | nan => false
    | infinite s => s
    | finite s _ _ => s

end Binary64

end DbSchema
