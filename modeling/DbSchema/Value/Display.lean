import DbSchema.Number.Shortest
import DbSchema.Text.Quoted
import DbSchema.Value.Basic

/-!
# Showing values

The two texts of a value: the one shown inside messages, where text stands between quotes, and
the plain one.  How an object of a model is shown is given by the caller, who holds the model.

## Main definitions

* `Value.display` — a value as messages show it.
* `Value.plain` — a value as plain text.
-/

namespace DbSchema

/-- An offset from universal time as messages show it. -/
def offsetDisplay (minutes : Int) : String :=
  if minutes = 0 then "datetime.timezone.utc"
  else
    let days := minutes.fdiv 1440
    let seconds := (minutes.fmod 1440) * 60
    "datetime.timezone(datetime.timedelta(" ++
      (if days = 0 then "" else "days=" ++ toString days ++ (if seconds = 0 then "" else ", ")) ++
      (if seconds = 0 then "" else "seconds=" ++ toString seconds) ++ "))"

/-- A date as messages show it. -/
def Date.display (d : Date) : String :=
  "datetime.date(" ++ ", ".intercalate [toString d.year, toString d.month, toString d.day] ++ ")"

/-- A date and time as messages show it; seconds are left out when nothing follows them. -/
def DateTime.display (t : DateTime) : String :=
  let parts := [t.date.year, t.date.month, t.date.day, t.hour, t.minute] ++
    (if t.microsecond ≠ 0 then [t.second, t.microsecond]
      else if t.second ≠ 0 then [t.second] else [])
  let zone :=
    match t.offset with
    | none => []
    | some o => ["tzinfo=" ++ offsetDisplay o]
  "datetime.datetime(" ++ ", ".intercalate (parts.map (fun n : Nat => toString n) ++ zone) ++ ")"

/-- A member of a closed set as plain text. -/
def memberText (family member : String) : String := family ++ "." ++ member

namespace Value

/-- The family that a kind of index belongs to. -/
def indexFamily : String := "IndexType"

/-- The family that a kind of constraint belongs to. -/
def constraintFamily : String := "ConstraintType"

/-- A member of a closed set as messages show it. -/
def memberDisplay (family member label : String) : String :=
  "<" ++ memberText family member ++ ": " ++ Text.quote label ++ ">"

/-- The text of a list that ends inside itself. -/
def innerMark : String := "..."

/-- Whether a collection is shown inside itself. -/
def isInside (inside : List Mark) (m : Mark) : Bool := m != .own && inside.contains m

mutual

/-- A value as messages show it inside of the collections with the given marks; what is shown
inside itself is cut. -/
def displayIn (shown : Ref → String) (inside : List Mark) : Value → String
  | .null => "None"
  | .bool b => if b then "True" else "False"
  | .int i => toString i
  | .float x => x.toText
  | .text s => Text.quote s
  | .bytes bs => Text.quoteBytes bs
  | .date d _ => d.display
  | .datetime t _ => t.display
  | .indexKind k => memberDisplay indexFamily k.memberName k.label
  | .constraintKind k => memberDisplay constraintFamily k.memberName k.label
  | .list items m =>
    if isInside inside m then "[" ++ innerMark ++ "]"
    else "[" ++ ", ".intercalate (displayAll shown (m :: inside) items) ++ "]"
  | .tuple items m =>
    if isInside inside m then "(" ++ innerMark ++ ")"
    else
      match items with
      | [item] => "(" ++ displayIn shown (m :: inside) item ++ ",)"
      | items => "(" ++ ", ".intercalate (displayAll shown (m :: inside) items) ++ ")"
  | .set items m =>
    if isInside inside m then "set(" ++ innerMark ++ ")"
    else if items.isEmpty then "set()"
    else "\x7b" ++ ", ".intercalate (displayAll shown (m :: inside) items) ++ "\x7d"
  | .map entries m =>
    if isInside inside m then "\x7b" ++ innerMark ++ "\x7d"
    else "\x7b" ++ ", ".intercalate (displayEntries shown (m :: inside) entries) ++ "\x7d"
  | .object r => shown r

/-- The values of a list as messages show them. -/
def displayAll (shown : Ref → String) (inside : List Mark) : List Value → List String
  | [] => []
  | v :: r => displayIn shown inside v :: displayAll shown inside r

/-- The entries of a mapping as messages show them. -/
def displayEntries (shown : Ref → String) (inside : List Mark) :
    List (Value × Value) → List String
  | [] => []
  | (k, v) :: r =>
    (displayIn shown inside k ++ ": " ++ displayIn shown inside v) ::
      displayEntries shown inside r

end

/-- A value as messages show it; `shown` gives the text of an object. -/
def display (shown : Ref → String) (v : Value) : String := displayIn shown [] v

/-- A value as plain text: text itself, members by name, dates in the standard form, and
everything else as messages show it. -/
def plain (shown : Ref → String) : Value → String
  | .text s => s
  | .indexKind k => memberText indexFamily k.memberName
  | .constraintKind k => memberText constraintFamily k.memberName
  | .date d _ => d.iso
  | .datetime t _ => t.iso " "
  | v => display shown v

end Value

end DbSchema
