import DbSchema.Source.Row
import DbSchema.Value.Order

/-!
# Grouping and sorting rows

Rows that belong together are gathered in the order in which their key first appears, and sorted
without disturbing rows that are equal.

## Main definitions

* `groupRows` — rows gathered by a column.
* `sortRows` — rows sorted by a column.
-/

namespace DbSchema.Source

/-- The groups after adding a row to the group of its key. -/
def addToGroup (key : Value) (row : Row) :
    List (Value × List Row) → List (Value × List Row)
  | [] => [(key, [row])]
  | (k, rows) :: r =>
    if Value.same k key then (k, rows ++ [row]) :: r else (k, rows) :: addToGroup key row r

/-- Adds rows to groups one by one; a key must be there and fit to be one. -/
def gatherRows (column : String) :
    List Row → List (Value × List Row) → Except Fault (List (Value × List Row))
  | [], groups => .ok groups
  | row :: r, groups =>
    match row.item column with
    | .error f => .error f
    | .ok key =>
      if key.hashable then gatherRows column r (addToGroup key row groups)
      else .error (.unhashable key)

/-- The rows gathered by a column, in the order in which its values first appear. -/
def groupRows (rows : List Row) (column : String) : Except Fault (List (Value × List Row)) :=
  gatherRows column rows []

/-- Rows with the value of one column each. -/
def withColumn (column : String) : List Row → Except Fault (List (Value × Row))
  | [] => .ok []
  | row :: r => do
    let v ← row.item column
    return (v, row) :: (← withColumn column r)

/-- The rows in ascending order of a column. -/
def sortRows (column : String) (rows : List Row) : Except Fault (List Row) := do
  let keyed ← withColumn column rows
  return (← sortBy (fun a b => Value.precedes a.1 b.1) keyed).map (·.2)

end DbSchema.Source
