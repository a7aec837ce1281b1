import DbSchema.Error.Model
import DbSchema.Names
import DbSchema.Number.Integer

/-!
# Integers from values

Sizes and counts arrive as numbers, texts or lists of either.

## Main definitions

* `Value.toInteger` — the integer that a value denotes, or why it denotes none.
* `parseSize` — the list of integers that a declared size denotes.
-/

namespace DbSchema

open Number

/-- The integer that a text denotes; `v` is shown when it denotes none. -/
def integerOfText (v : Value) (s : String) : Except Fault Int :=
  match readDigits? s with
  | none => .error (.badInteger v)
  | some (negative, ds) =>
    if ds.length ≤ maxDigits then .ok (signed negative (ofDigits 10 ds))
    else .error (.longInteger ds.length)

/-- The integer that a value denotes: numbers are cut off after the point, texts are read. -/
def Value.toInteger : Value → Except Fault Int
  | .bool b => .ok (if b then 1 else 0)
  | .int i => .ok i
  | .float x =>
    match x.truncate? with
    | some i => .ok i
    | none => .error (if x = .nan then .nanInteger else .infiniteInteger)
  | .text s => integerOfText (.text s) s
  | .bytes bs =>
    if bs.all (· < 0x80) then
      integerOfText (.bytes bs) (String.ofList (bs.map fun b => Char.ofNat b.toNat))
    else .error (.badInteger (.bytes bs))
  | v => .error (.noInteger v)

/-- The integers of the parts of a size; `whole` is the size they belong to.  An infinity is a
fault of its own, everything else that is no integer makes the size invalid. -/
def sizeParts (whole : Value) : List Value → Except ModelError (List Int)
  | [] => .ok []
  | v :: r =>
    match v.toInteger with
    | .ok i => (sizeParts whole r).map (i :: ·)
    | .error .infiniteInteger => .error (.fault .infiniteInteger)
    | .error _ => .error (.childInvalid (.invalidSize whole))

/-- The integers that a declared size denotes: nothing for null, zero and empty text, one for an
integer, the parts of a text with commas, or the items of a list. -/
def parseSize (v : Value) : Except ModelError (List Int) :=
  match v with
  | .null => .ok []
  | .int i => .ok (if i = 0 then [] else [i])
  | .text s =>
    if s = "" then .ok []
    else sizeParts v ((normalizeNames (Text.splitOn ',' s)).map .text)
  | .list items _ | .tuple items _ => sizeParts v items
  | v => .error (.childInvalid (.invalidSize v))

end DbSchema
