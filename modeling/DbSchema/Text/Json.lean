import DbSchema.Error.Fault
import DbSchema.Number.Integer
import DbSchema.Text.Blank

/-!
# Values in JSON

JSON texts are read into values.  Besides the standard forms, infinities and not a number may be
written as words; later entries of an object replace earlier ones with the same key.

## Main definitions

* `Json.Refusal` — why a text cannot be read.
* `Json.parse` — the value of a text.
-/

namespace DbSchema.Json

open Number Text

/-- Why a text cannot be read. -/
inductive Refusal
  | malformed
  | fault (f : Fault)
deriving Repr, Inhabited

/-- A value and the characters after it. -/
abbrev Read (α : Type) := Except Refusal (α × List Char)

/-- White space between the parts of a text. -/
def isSpace (c : Char) : Bool := c == ' ' || c == '\t' || c == '\n' || c == '\r'

/-- The characters after white space. -/
def dropSpace (cs : List Char) : List Char := cs.dropWhile isSpace

/-- The character of a one-letter escape. -/
def escape? (c : Char) : Option Char :=
  match c with
  | '"' => some '"'
  | '\\' => some '\\'
  | '/' => some '/'
  | 'b' => some (Char.ofNat 8)
  | 'f' => some (Char.ofNat 0xC)
  | 'n' => some '\n'
  | 'r' => some '\r'
  | 't' => some '\t'
  | _ => none

/-- The number that four hexadecimal digits in front denote, and the rest. -/
def unit? : List Char → Option (Nat × List Char)
  | a :: b :: c :: d :: r => ([a, b, c, d].mapM hexDigit?).map fun ds => (ofDigits 16 ds, r)
  | _ => none

/-- The character of a code unit; `r` is the rest, which may hold the other half of a pair. -/
def ofUnit (n : Nat) (r : List Char) : Char × List Char :=
  if 0xD800 ≤ n ∧ n ≤ 0xDBFF then
    match r with
    | '\\' :: 'u' :: r' =>
      match unit? r' with
      | some (m, rest) =>
        if 0xDC00 ≤ m ∧ m ≤ 0xDFFF then
          (Char.ofNat (0x10000 + (n - 0xD800) * 0x400 + (m - 0xDC00)), rest)
        else (Char.ofNat 0xFFFD, r)
      | none => (Char.ofNat 0xFFFD, r)
    | _ => (Char.ofNat 0xFFFD, r)
  else if 0xDC00 ≤ n ∧ n ≤ 0xDFFF then (Char.ofNat 0xFFFD, r)
  else (Char.ofNat n, r)

/-- The characters of a string up to its closing quote. -/
def parseString : Nat → List Char → Read (List Char)
  | 0, _ => .error .malformed
  | _, [] => .error .malformed
  | fuel + 1, c :: r =>
    let andThen (x : Char) (r : List Char) : Read (List Char) :=
      (parseString fuel r).map fun (xs, rest) => (x :: xs, rest)
    if c = '"' then .ok ([], r)
    else if c.toNat < 0x20 then .error .malformed
    else if c = '\\' then
      match r with
      | 'u' :: r' =>
        match unit? r' with
        | some (n, rest) => andThen (ofUnit n rest).1 (ofUnit n rest).2
        | none => .error .malformed
      | e :: r' =>
        match escape? e with
        | some x => andThen x r'
        | none => .error .malformed
      | [] => .error .malformed
    else andThen c r

/-- The digits after a point, with the point. -/
def fractionOf (cs : List Char) : List Char :=
  match cs with
  | '.' :: r =>
    match r.takeWhile Char.isDigit with
    | [] => []
    | ds => '.' :: ds
  | _ => []

/-- The exponent in front, with its letter and its sign. -/
def exponentOf (cs : List Char) : List Char :=
  match cs with
  | e :: r =>
    if e = 'e' ∨ e = 'E' then
      let sign := (r.take 1).filter fun c => c == '+' || c == '-'
      match (r.drop sign.length).takeWhile Char.isDigit with
      | [] => []
      | ds => e :: sign ++ ds
    else []
  | [] => []

/-- The digits of a whole number in front: one zero, or digits that do not begin with one. -/
def wholeOf (cs : List Char) : List Char :=
  match cs with
  | '0' :: _ => ['0']
  | cs => cs.takeWhile Char.isDigit

/-- A number. -/
def parseNumber (cs : List Char) : Read Value :=
  let sign := (cs.take 1).filter (· == '-')
  let unsigned := cs.drop sign.length
  let whole := wholeOf unsigned
  if whole.isEmpty then .error .malformed
  else
    let after := unsigned.drop whole.length
    let fraction := fractionOf after
    let exponent := exponentOf (after.drop fraction.length)
    let rest := after.drop (fraction.length + exponent.length)
    let literal := String.ofList (sign ++ whole ++ fraction ++ exponent)
    if fraction.isEmpty ∧ exponent.isEmpty then
      if maxDigits < whole.length then .error (.fault (.longInteger whole.length))
      else
        match readInteger? literal with
        | some n => .ok (.int n, rest)
        | none => .error .malformed
    else
      match Binary64.ofText? literal with
      | some x => .ok (.float x, rest)
      | none => .error .malformed

/-- The words that stand for values. -/
def words : List (String × Value) := [
  ("null", .null), ("true", .bool true), ("false", .bool false), ("NaN", .float .nan),
  ("Infinity", .float (.infinite false)), ("-Infinity", .float (.infinite true))]

/-- The word in front, if it stands for a value. -/
def word? (cs : List Char) : Option (Value × List Char) :=
  words.findSome? fun w => (dropPrefix? w.1.toList cs).map fun rest => (w.2, rest)

mutual

/-- A value. -/
def parseValue : Nat → List Char → Read Value
  | 0, _ => .error .malformed
  | fuel + 1, cs =>
    match cs with
    | '"' :: r =>
      (parseString (r.length + 1) r).map fun (s, rest) => (.text (String.ofList s), rest)
    | '[' :: r =>
      match dropSpace r with
      | ']' :: rest => .ok (.ofList [], rest)
      | r => (parseItems fuel r).map fun (vs, rest) => (.ofList vs, rest)
    | '\x7b' :: r =>
      match dropSpace r with
      | '\x7d' :: rest => .ok (.map [] .own, rest)
      | r => (parseEntries fuel [] r).map fun (es, rest) => (.map es .own, rest)
    | cs =>
      match word? cs with
      | some found => .ok found
      | none => parseNumber cs

/-- The items of an array up to its closing bracket. -/
def parseItems : Nat → List Char → Except Refusal (List Value × List Char)
  | 0, _ => .error .malformed
  | fuel + 1, cs => do
    let (v, rest) ← parseValue fuel cs
    match dropSpace rest with
    | ']' :: rest => return ([v], rest)
    | ',' :: rest =>
      let (vs, rest) ← parseItems fuel (dropSpace rest)
      return (v :: vs, rest)
    | _ => throw .malformed

/-- The entries of an object up to its closing brace, put after the given ones. -/
def parseEntries : Nat → List (Value × Value) → List Char →
    Except Refusal (List (Value × Value) × List Char)
  | 0, _, _ => .error .malformed
  | fuel + 1, entries, cs =>
    match cs with
    | '"' :: r => do
      let (key, rest) ← parseString (r.length + 1) r
      match dropSpace rest with
      | ':' :: rest =>
        let (v, rest) ← parseValue fuel (dropSpace rest)
        let entries := Value.store (.text (String.ofList key)) v entries
        match dropSpace rest with
        | '\x7d' :: rest => return (entries, rest)
        | ',' :: rest => parseEntries fuel entries (dropSpace rest)
        | _ => throw .malformed
      | _ => throw .malformed
    | _ => .error .malformed

end

/-- The value of a text. -/
def parse (s : String) : Except Refusal Value := do
  let cs := s.toList
  let (v, rest) ← parseValue (2 * cs.length + 2) (dropSpace cs)
  if (dropSpace rest).isEmpty then return v else throw .malformed

end DbSchema.Json
