import DbSchema.Error.Model

/-!
# Lists of names

Operations take a list of names in several shapes: one text with commas, several texts, or a list
of texts.  Every shape ends as one list of trimmed names that are not empty.

## Main definitions

* `normalizeNames` — trims each name and drops the empty ones.
* `splitNames` — the names that a list of arguments gives.
-/

namespace DbSchema

open Text

/-- Trims each name and drops the empty ones. -/
def normalizeNames (names : List String) : List String :=
  (names.map trim).filter (· != "")

/-- The texts of a list of values, all of which must be texts. -/
def textsOf : List Value → Except TypeReason (List String)
  | [] => .ok []
  | .text s :: r => (textsOf r).map (s :: ·)
  | v :: _ => .error (.notName v)

/-- The names that one argument gives, not yet trimmed: a text is cut at its commas, a list is
taken item by item, and null gives none. -/
def namesOf : Value → Except TypeReason (List String)
  | .text s => .ok (splitOn ',' s)
  | .list items _ | .tuple items _ => textsOf items
  | .null => .ok []
  | v => .error (.notNames v)

/-- The names that all arguments give, in order and not yet trimmed. -/
def gatherNames : List Value → Except TypeReason (List String)
  | [] => .ok []
  | v :: r => do
    let names ← namesOf v
    let more ← gatherNames r
    return names ++ more

/-- The names that a list of arguments gives. -/
def splitNames (values : List Value) : Except TypeReason (List String) :=
  (gatherNames values).map normalizeNames

end DbSchema
