import DbSchema.Error.Limits
import DbSchema.Text.Json

/-!
# Clustering columns

The columns a table is clustered by are reported as a list, as the JSON text of a list, or as names
between commas.

## Main definitions

* `clusteringColumns` — the names of the columns.
-/

namespace DbSchema.Source

/-- The texts that are not blank, trimmed. -/
def trimmedTexts (texts : List String) : List String := (texts.map Text.trim).filter (· != "")

/-- Whether a text stands between brackets. -/
def isBracketed (s : String) : Bool := Text.hasStart s "[" && Text.hasEnd s "]"

/-- The names that a list of values gives. -/
def namesOfItems (shown : Ref → String) (items : List Value) : Except Fault (List String) := do
  return trimmedTexts (← items.mapM (Value.toText shown))

/-- The names that a text gives: the items of a JSON list, or the pieces between commas. -/
def namesOfText (shown : Ref → String) (s : String) : Except Fault (List String) :=
  let pieces := trimmedTexts (Text.splitOn ',' s)
  if isBracketed s then
    match Json.parse s with
    | .ok (.list items _) => namesOfItems shown items
    | .ok _ | .error .malformed => .ok pieces
    | .error (.fault f) => .error f
  else .ok pieces

/-- The names of the columns that a table is clustered by. -/
def clusteringColumns (shown : Ref → String) (v : Value) : Except Fault (List String) :=
  if !v.truthy then .ok []
  else
    match v with
    | .list items _ => namesOfItems shown items
    | v => do namesOfText shown (Text.trim (← v.toText shown))

end DbSchema.Source
