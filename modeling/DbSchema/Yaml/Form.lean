import DbSchema.Error.Limits
import DbSchema.Yaml.Tag

/-!
# What a document is written from

Before a value is written it takes the shape of a document: scalars with their text, sequences and
mappings, each with the tag that it is written under.  Members of closed sets are sequences with
one item, and objects of a model are mappings of what they hold.  What occurs in several places is
written out where it occurs first and is an alias everywhere else.

## Main definitions

* `Identity` — tells whether two places hold one and the same thing.
* `Form` — scalars, sequences, mappings and aliases.
* `Form.ofValue` — the form of a value, or what keeps it from being written.
* `Form.shared` — what aliases stand for, in the order of the anchors.
-/

namespace DbSchema.Yaml

/-- What tells whether two places of a document hold one and the same thing. -/
inductive Identity
  | mark (m : Mark)
  | indexKind (k : IndexKind)
  | constraintKind (k : ConstraintKind)
  | object (r : Ref)
deriving DecidableEq, Repr, Inhabited

/-- What can be recognised when it occurs in another place too.  Members of closed sets and objects
always can be, collections and dates when they carry a mark, an empty tuple never. -/
def Identity.ofValue? : Value → Option Identity
  | .tuple [] _ => none
  | .list _ .own | .tuple _ .own | .set _ .own | .map _ .own | .date _ .own | .datetime _ .own =>
    none
  | .list _ m | .tuple _ m | .set _ m | .map _ m | .date _ m | .datetime _ m => some (.mark m)
  | .indexKind k => some (.indexKind k)
  | .constraintKind k => some (.constraintKind k)
  | .object r => some (.object r)
  | _ => none

/-- A value in the shape of a document.  Collections without a tag are plain ones. -/
inductive Form
  | scalar (tag : Tag) (text : String) (identity : Option Identity)
  | sequence (tag : Option String) (items : List Form) (identity : Option Identity)
  | mapping (tag : Option String) (entries : List (Form × Form)) (identity : Option Identity)
  | alias (identity : Identity)
deriving Repr, Inhabited

/-! ### Scalars -/

/-- The digits of base sixty-four. -/
def sixtyFourDigit (n : Nat) : Char :=
  if n < 26 then Char.ofNat (65 + n)
  else if n < 52 then Char.ofNat (71 + n)
  else if n < 62 then Char.ofNat (n - 4)
  else if n = 62 then '+'
  else '/'

/-- Bytes in base sixty-four. -/
def sixtyFour : List UInt8 → List Char
  | a :: b :: c :: r =>
    sixtyFourDigit (a.toNat / 4) :: sixtyFourDigit (a.toNat % 4 * 16 + b.toNat / 16) ::
      sixtyFourDigit (b.toNat % 16 * 4 + c.toNat / 64) :: sixtyFourDigit (c.toNat % 64) ::
      sixtyFour r
  | [a, b] =>
    [sixtyFourDigit (a.toNat / 4), sixtyFourDigit (a.toNat % 4 * 16 + b.toNat / 16),
      sixtyFourDigit (b.toNat % 16 * 4), '=']
  | [a] => [sixtyFourDigit (a.toNat / 4), sixtyFourDigit (a.toNat % 4 * 16), '=', '=']
  | [] => []

/-- Characters in lines of the given length, each with its line break; `fuel` bounds the lines. -/
def linesOf (length : Nat) : Nat → List Char → List Char
  | 0, _ => []
  | fuel + 1, cs =>
    if cs.isEmpty then []
    else cs.take length ++ '\n' :: linesOf length fuel (cs.drop length)

/-- Bytes in lines of base sixty-four. -/
def bytesText (bs : List UInt8) : String :=
  let cs := sixtyFour bs
  String.ofList (linesOf 76 cs.length cs)

/-- A number with a point in front of its exponent. -/
def withPoint (cs : List Char) : List Char :=
  if cs.contains '.' then cs
  else cs.flatMap fun c => if c = 'e' then ['.', '0', 'e'] else [c]

/-- A floating-point number in the spelling of the format. -/
def floatText (x : Binary64) : String :=
  match x with
  | .nan => ".nan"
  | .infinite false => ".inf"
  | .infinite true => "-.inf"
  | x => String.ofList (withPoint x.toText.toList)

/-! ### Tags -/

/-- A standard tag as it is written. -/
def Tag.written (t : Tag) : String := "!!" ++ t.name

/-- The tag of a sequence that cannot change. -/
def fixedSequenceTag : String := "!!python/tuple"

/-- The tag of a member of a closed set. -/
def memberTag (family : String) : String := "!!python/object/apply:sqlt.types." ++ family

/-- The tag of an object of a model. -/
def objectTag (title : String) : String := "!!python/object:sqlt.schema." ++ title

/-! ### Forms of values -/

/-- Giving values their forms, with what has got its form already. -/
abbrev Drawing := StateT (List Identity) (Except Fault)

/-- The greatest depth of a collection that can be written. -/
def maxLevels : Nat := 328

namespace Drawing

/-- The form of what can be recognised: an alias if it has a form already. -/
def once (i : Option Identity) (draw : Drawing Form) : Drawing Form := do
  match i with
  | none => draw
  | some i =>
    if (← get).contains i then return .alias i
    modify (i :: ·)
    draw

/-- The form of a collection at a depth, which must not be too great. -/
def within (depth : Nat) (draw : Drawing Form) : Drawing Form :=
  if maxLevels < depth then throw .tooDeep else draw

end Drawing

/-- The form of a value without parts. -/
def scalarForm (i : Option Identity) : Value → Drawing Form
  | .bool b => return .scalar .bool (if b then "true" else "false") i
  | .int n =>
    if isLongInteger n then throw .unwritableInteger else return .scalar .int (toString n) i
  | .float x => return .scalar .float (floatText x) i
  | .text s => return .scalar .str s i
  | .bytes bs => return .scalar .binary (bytesText bs) i
  | .date d _ => return .scalar .timestamp d.iso i
  | .datetime t _ => return .scalar .timestamp (t.iso " ") i
  | _ => return .scalar .null "null" i

/-- A member of a closed set: a sequence that holds its label. -/
def memberForm (family label : String) (i : Option Identity) : Form :=
  .sequence (some (memberTag family)) [.scalar .str label none] i

mutual

/-- The form of a value at a depth; `object` gives the form of an object. -/
def formOf (object : Nat → Ref → Drawing Form) (depth : Nat) (v : Value) : Drawing Form :=
  let i := Identity.ofValue? v
  match v with
  | .list items _ => .once i <| .within depth do
    return .sequence none (← formsOf object (depth + 1) items) i
  | .tuple items _ => .once i <| .within depth do
    return .sequence (some fixedSequenceTag) (← formsOf object (depth + 1) items) i
  | .set items _ => .once i <| .within depth do
    let keys ← formsOf object (depth + 1) items
    return .mapping (some Tag.set.written) (keys.map fun k => (k, .scalar .null "null" none)) i
  | .map entries _ => .once i <| .within depth do
    return .mapping none (← entryForms object (depth + 1) entries) i
  | .indexKind k => .once i (return memberForm Value.indexFamily k.label i)
  | .constraintKind k => .once i (return memberForm Value.constraintFamily k.label i)
  | .object r => .once i (object depth r)
  | v => .once i (scalarForm i v)

/-- The forms of a list of values. -/
def formsOf (object : Nat → Ref → Drawing Form) (depth : Nat) : List Value → Drawing (List Form)
  | [] => return []
  | v :: r => do
    let x ← formOf object depth v
    return x :: (← formsOf object depth r)

/-- The forms of the entries of a mapping. -/
def entryForms (object : Nat → Ref → Drawing Form) (depth : Nat) :
    List (Value × Value) → Drawing (List (Form × Form))
  | [] => return []
  | (k, v) :: r => do
    let x ← formOf object depth k
    let y ← formOf object depth v
    return (x, y) :: (← entryForms object depth r)

end

/-- What an object of a model is written as: the title of its kind, and what it holds. -/
structure Description where
  title : String
  entries : List (String × Value)
deriving Repr, Inhabited

/-- The form of an object at a depth; `levels` bounds how far objects are followed. -/
def objectForm (describe : Ref → Except Fault Description) : Nat → Nat → Ref → Drawing Form
  | 0, _, _ => throw .tooDeep
  | levels + 1, depth, r => do
    let d ← (describe r : Except Fault Description)
    let entries ← entryForms (objectForm describe levels) (depth + 1)
      (d.entries.map fun e => (.text e.1, e.2))
    return .mapping (some (objectTag d.title)) entries (some (.object r))

namespace Form

/-- The form of a value; `describe` says what the objects in it are, of which there are at most
`objects`. -/
def ofValue (describe : Ref → Except Fault Description) (objects : Nat) (v : Value) :
    Except Fault Form :=
  (formOf (objectForm describe objects) 1 v).run' []

mutual

/-- What the aliases in a form stand for. -/
def aliases : Form → List Identity
  | scalar .. => []
  | sequence _ items _ => aliasesAll items
  | mapping _ entries _ => aliasesEntries entries
  | .alias i => [i]

/-- What the aliases in a list of forms stand for. -/
def aliasesAll : List Form → List Identity
  | [] => []
  | x :: r => aliases x ++ aliasesAll r

/-- What the aliases in the entries of a mapping stand for. -/
def aliasesEntries : List (Form × Form) → List Identity
  | [] => []
  | (k, x) :: r => aliases k ++ aliases x ++ aliasesEntries r

end

/-- What occurs in several places, in the order in which that is noticed. -/
def shared (x : Form) : List Identity := x.aliases.eraseDups

/-- What a form is recognised by where it is written out. -/
def identity? : Form → Option Identity
  | scalar _ _ i | sequence _ _ i | mapping _ _ i => i
  | .alias _ => none

end Form

end DbSchema.Yaml
