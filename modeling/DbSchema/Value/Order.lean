import DbSchema.Error.Fault

/-!
# The order of values

Numbers are ordered by size, texts by their characters, lists and tuples item by item; other pairs
have no order.  Sorting does not disturb items that are equal.

## Main definitions

* `Value.precedes` — whether a value comes before another.
* `sortBy` — a list in ascending order.
-/

namespace DbSchema

namespace Value

/-- A number as a floating-point number or an integer. -/
def asNumber? : Value → Option (Int ⊕ Binary64)
  | .float x => some (.inr x)
  | v => v.asInt?.map .inl

mutual

/-- Whether a value comes before another: numbers by size, texts by their characters, lists and
tuples item by item.  Other pairs have no order. -/
def precedes : Value → Value → Except Fault Bool
  | .text s, .text t => .ok (decide (s < t))
  | .bytes bs, .bytes cs => .ok (decide (bs.map UInt8.toNat < cs.map UInt8.toNat))
  | .list xs _, .list ys _ => allPrecede xs ys
  | .tuple xs _, .tuple ys _ => allPrecede xs ys
  | .date d _, .date e _ => .ok (decide (d.dayNumber < e.dayNumber))
  | v, w =>
    match asNumber? v, asNumber? w with
    | some (.inl i), some (.inl j) => .ok (decide (i < j))
    | some (.inl i), some (.inr y) => .ok (y.aboveInt i)
    | some (.inr x), some (.inl j) => .ok (x.belowInt j)
    | some (.inr x), some (.inr y) => .ok (x.less y)
    | _, _ => .error (.unordered v w)

/-- The order of lists: the first items that differ decide, then the length. -/
def allPrecede : List Value → List Value → Except Fault Bool
  | [], ys => .ok !ys.isEmpty
  | _ :: _, [] => .ok false
  | x :: xs, y :: ys => if same x y then allPrecede xs ys else precedes x y

end

end Value

variable {α : Type}

/-- Puts an item into a sorted list, after all items that it does not come before.  The list is
given from its end. -/
def insertSorted (before : α → α → Except Fault Bool) (x : α) : List α → Except Fault (List α)
  | [] => .ok [x]
  | y :: r => do
    if ← before x y then return y :: (← insertSorted before x r) else return x :: y :: r

/-- The items in ascending order; equal items keep their order. -/
def sortBy (before : α → α → Except Fault Bool) (items : List α) : Except Fault (List α) := do
  return (← items.foldlM (fun sorted x => insertSorted before x sorted) []).reverse

end DbSchema
