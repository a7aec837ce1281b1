import DbSchema.Calendar
import DbSchema.Kind
import DbSchema.Number.Binary64

/-!
# Values

Attributes of a schema may hold values of any shape: what a file or a database reports is kept as
it came.  This module holds the type of these values and the plain questions about them.

## Main definitions

* `Ref` — names one object of a model by its kind and number.
* `Value` — null, truth values, numbers, text, bytes, dates, kinds, collections and objects.
* `Mark` — tells whether two places hold one and the same collection or date.
* `Value.truthy`, `Value.hashable` — emptiness, and fitness as a key.
* `Value.same` — equality of values.
-/

namespace DbSchema

/-- The number of a schema in a model. -/
structure SchemaId where
  index : Nat
deriving DecidableEq, Repr, Inhabited

/-- The number of a table in a model. -/
structure TableId where
  index : Nat
deriving DecidableEq, Repr, Inhabited

/-- The number of a field in a model. -/
structure FieldId where
  index : Nat
deriving DecidableEq, Repr, Inhabited

/-- The number of an index in a model. -/
structure IndexId where
  index : Nat
deriving DecidableEq, Repr, Inhabited

/-- The number of a constraint in a model. -/
structure ConstraintId where
  index : Nat
deriving DecidableEq, Repr, Inhabited

/-- An object of a model. -/
inductive Ref
  | schema (s : SchemaId)
  | table (t : TableId)
  | field (f : FieldId)
  | index (i : IndexId)
  | constraint (c : ConstraintId)
deriving DecidableEq, Repr, Inhabited

/-- What tells whether two places hold one and the same collection or date. -/
inductive Mark
  /-- No other place holds it. -/
  | own
  /-- Every place with this number of a document holds it. -/
  | node (n : Nat)
  /-- It is the named attribute of this object. -/
  | slot (owner : Ref) (name : String)
deriving DecidableEq, Repr, Inhabited

/-- A value of any shape. -/
inductive Value
  | null
  | bool (b : Bool)
  | int (i : Int)
  | float (x : Binary64)
  | text (s : String)
  | bytes (bs : List UInt8)
  | date (d : Date) (mark : Mark)
  | datetime (t : DateTime) (mark : Mark)
  | indexKind (k : IndexKind)
  | constraintKind (k : ConstraintKind)
  | list (items : List Value) (mark : Mark)
  | tuple (items : List Value) (mark : Mark)
  | set (items : List Value) (mark : Mark)
  | map (entries : List (Value × Value)) (mark : Mark)
  | object (r : Ref)
deriving Repr, Inhabited

namespace Value

/-- A list that no other place holds. -/
def ofList (items : List Value) : Value := .list items .own

/-- A list of texts that no other place holds. -/
def ofTexts (texts : List String) : Value := .ofList (texts.map .text)

/-- A list of integers that no other place holds. -/
def ofInts (ints : List Int) : Value := .ofList (ints.map .int)

/-- A mapping with text keys that no other place holds. -/
def ofPairs (pairs : List (String × Value)) : Value :=
  .map (pairs.map fun p => (.text p.1, p.2)) .own

/-- Whether a value counts as true: null, zero and everything empty do not. -/
def truthy : Value → Bool
  | .null => false
  | .bool b => b
  | .int i => i != 0
  | .float x => x.isNonzero
  | .text s => s != ""
  | .bytes bs => !bs.isEmpty
  | .list items _ | .tuple items _ | .set items _ => !items.isEmpty
  | .map entries _ => !entries.isEmpty
  | .date .. | .datetime .. | .indexKind _ | .constraintKind _ | .object _ => true

mutual

/-- Whether a value may be a key: collections that can change may not, and fields, indices and
constraints compare by content and may not either. -/
def hashable : Value → Bool
  | .list .. | .set .. | .map .. => false
  | .tuple items _ => hashableAll items
  | .object (.field _) | .object (.index _) | .object (.constraint _) => false
  | _ => true

/-- Whether every value of a list may be a key. -/
def hashableAll : List Value → Bool
  | [] => true
  | v :: r => hashable v && hashableAll r

end

mutual

/-- The objects of a model that a value holds. -/
def refs : Value → List Ref
  | .object r => [r]
  | .list items _ | .tuple items _ | .set items _ => refsAll items
  | .map entries _ => refsEntries entries
  | _ => []

/-- The objects that the values of a list hold. -/
def refsAll : List Value → List Ref
  | [] => []
  | v :: r => refs v ++ refsAll r

/-- The objects that the entries of a mapping hold. -/
def refsEntries : List (Value × Value) → List Ref
  | [] => []
  | (k, v) :: r => refs k ++ refs v ++ refsEntries r

end

/-- The text of a value that is a text. -/
def asText? : Value → Option String
  | .text s => some s
  | _ => none

/-- The integer of a truth value or an integer. -/
def asInt? : Value → Option Int
  | .bool b => some (if b then 1 else 0)
  | .int i => some i
  | _ => none

/-- Equality of two numbers of any kind; truth values count as zero and one. -/
def sameNumber (v w : Value) : Bool :=
  match v.asInt?, w.asInt? with
  | some i, some j => i == j
  | some i, none =>
    match w with
    | .float y => y.equalsInt i
    | _ => false
  | none, some j =>
    match v with
    | .float x => x.equalsInt j
    | _ => false
  | none, none =>
    match v, w with
    | .float x, .float y => x.same y
    | _, _ => false

mutual

/-- Equality of values: numbers by size, texts and dates by content, lists item by item, mappings
and sets without regard to order, objects by identity. -/
def same : Value → Value → Bool
  | .null, .null => true
  | .text s, .text t => s == t
  | .bytes bs, .bytes cs => bs == cs
  | .date d _, .date e _ => d == e
  | .datetime t _, .datetime u _ => t.same u
  | .indexKind k, .indexKind l => k == l
  | .constraintKind k, .constraintKind l => k == l
  | .list xs _, .list ys _ => sameAll xs ys
  | .tuple xs _, .tuple ys _ => sameAll xs ys
  | .set xs _, .set ys _ => xs.length == ys.length && eachIn xs ys
  | .map xs _, .map ys _ => xs.length == ys.length && eachEntryIn xs ys
  | .object r, .object s => r == s
  | v, w => sameNumber v w

/-- Equality item by item. -/
def sameAll : List Value → List Value → Bool
  | [], [] => true
  | x :: xs, y :: ys => same x y && sameAll xs ys
  | _, _ => false

/-- Whether every value of the first list equals one of the second. -/
def eachIn : List Value → List Value → Bool
  | [], _ => true
  | x :: xs, ys => ys.any (fun y => same x y) && eachIn xs ys

/-- Whether every entry of the first mapping occurs in the second. -/
def eachEntryIn : List (Value × Value) → List (Value × Value) → Bool
  | [], _ => true
  | (k, v) :: xs, ys => ys.any (fun e => same k e.1 && same v e.2) && eachEntryIn xs ys

end

/-- The entry of a mapping under a text. -/
def entry? (key : String) (entries : List (Value × Value)) : Option Value :=
  (entries.find? fun e => e.1.asText? == some key).map (·.2)

/-- The entries after storing a value under a key: an equal key keeps its place and its first
spelling. -/
def store (key value : Value) : List (Value × Value) → List (Value × Value)
  | [] => [(key, value)]
  | (k, v) :: r => if same k key then (k, value) :: r else (k, v) :: store key value r

/-- The same value, known to be the named attribute of an object unless it is already shared. -/
def markedAs (m : Mark) : Value → Value
  | .list items .own => .list items m
  | .tuple items .own => .tuple items m
  | .set items .own => .set items m
  | .map entries .own => .map entries m
  | .date d .own => .date d m
  | .datetime t .own => .datetime t m
  | v => v

end Value

end DbSchema
