import DbSchema.Error.Fault

/-!
# Values without a text

An integer of too many digits has no text, nor has a value that holds it.  A value that holds itself
has a text in messages, where it is cut, but cannot be written out in full.

## Main definitions

* `isLongInteger` — integers without a text.
* `Value.showFault?` — what keeps a value out of messages.
* `Value.spellFault?` — what keeps a value from being written out in full.
* `Value.toText` — the plain text of a value, unless it has none.
-/

namespace DbSchema

/-- The least size of an integer that has too many digits to be written. -/
def longIntegerSize : Nat := Binary64.tenTo Number.maxDigits

/-- Whether an integer has too many digits to be written. -/
def isLongInteger (i : Int) : Bool := decide (longIntegerSize ≤ i.natAbs)

namespace Value

mutual

/-- The first fault in going through a value inside of the collections with the given marks;
`endless` is the fault of a collection inside itself, if that is one. -/
def walkFault? (endless : Option Fault) (inside : List Mark) : Value → Option Fault
  | .int i => if isLongInteger i then some .unwritableInteger else none
  | .list items m | .tuple items m | .set items m =>
    if isInside inside m then endless else walkFaultAll endless (m :: inside) items
  | .map entries m =>
    if isInside inside m then endless else walkFaultEntries endless (m :: inside) entries
  | _ => none

/-- The first fault in going through a list of values. -/
def walkFaultAll (endless : Option Fault) (inside : List Mark) : List Value → Option Fault
  | [] => none
  | v :: r => (walkFault? endless inside v).or (walkFaultAll endless inside r)

/-- The first fault in going through the entries of a mapping. -/
def walkFaultEntries (endless : Option Fault) (inside : List Mark) :
    List (Value × Value) → Option Fault
  | [] => none
  | (k, v) :: r =>
    ((walkFault? endless inside k).or (walkFault? endless inside v)).or
      (walkFaultEntries endless inside r)

end

/-- What keeps a value from being shown in a message. -/
def showFault? (v : Value) : Option Fault := walkFault? none [] v

/-- What keeps a value from being written out in full. -/
def spellFault? (v : Value) : Option Fault := walkFault? (some .tooDeep) [] v

/-- The plain text of a value, or why it has none. -/
def toText (shown : Ref → String) (v : Value) : Except Fault String :=
  match v.showFault? with
  | some f => .error f
  | none => .ok (v.plain shown)

end Value

end DbSchema
