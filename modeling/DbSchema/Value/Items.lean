import DbSchema.Error.Fault
import DbSchema.Text.Blank

/-!
# Going through values

Collections have items, a mapping has its keys, and a text its characters.

## Main definitions

* `Value.items` — what going through a value gives.
* `Value.holds` — whether something is among them.
-/

namespace DbSchema.Value

/-- What going through a value gives: the items of a collection, the keys of a mapping, and the
characters of a text.  Nothing else can be gone through. -/
def items : Value → Except Fault (List Value)
  | .list vs _ | .tuple vs _ | .set vs _ => .ok vs
  | .map entries _ => .ok (entries.map (·.1))
  | .text s => .ok (s.toList.map fun c => .text c.toString)
  | .bytes bs => .ok (bs.map fun b => .int b.toNat)
  | v => .error (.notIterable v)

/-- Whether a value is in another one: among the items of a list, the keys of a mapping, or the
parts of a text. -/
def holds (container item : Value) : Except Fault Bool :=
  match container with
  | .list vs _ | .tuple vs _ => .ok (vs.any fun v => v.same item)
  | .set vs _ =>
    if item.hashable then .ok (vs.any fun v => v.same item) else .error (.unhashable item)
  | .map entries _ =>
    if item.hashable then .ok (entries.any fun e => e.1.same item) else .error (.unhashable item)
  | .text s =>
    match item with
    | .text part => .ok (Text.occursIn part s)
    | v => .error (.notText v)
  | v => .error (.notIterable v)

end DbSchema.Value
