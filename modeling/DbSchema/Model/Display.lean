import DbSchema.Model.Basic

/-!
# Showing objects

How schemas, tables, fields, indices and constraints are shown inside messages.

## Main definitions

* `Store.shown` — the text of an object.
-/

namespace DbSchema.Store

/-- A named list of parts in parentheses. -/
def record (title : String) (parts : List (String × String)) : String :=
  title ++ "(" ++ ", ".intercalate (parts.map fun p => p.1 ++ "=" ++ p.2) ++ ")"

/-- What an object shows of itself: a title and its parts. -/
def shownParts (st : Store) : Ref → String × Params
  | .schema s =>
    let x := st.schema s
    ("Schema", [("name", x.name), ("tables", .ofList (x.tables.map (·.1)))])
  | .table t =>
    let x := st.table t
    ("Table", [("name", x.name), ("fields", .ofList (x.fields.map (·.1)))])
  | .field f => ("Field", (st.field f).attributes ++ [("order", (st.field f).order)])
  | .index i => ("Index", (st.index i).attributes)
  | .constraint c => ("Constraint", (st.constraint c).attributes)

/-- The text of an object inside of others, following references between objects at most `depth`
times; an object inside itself is cut. -/
def shownIn (st : Store) (inside : List Ref) : Nat → Ref → String
  | 0, _ => Value.innerMark
  | depth + 1, r =>
    if inside.contains r then Value.innerMark
    else
      let (title, parts) := st.shownParts r
      record title (parts.map fun p => (p.1, p.2.display (st.shownIn (r :: inside) depth)))

/-- The text of an object. -/
def shown (st : Store) (r : Ref) : String := st.shownIn [] (st.size + 1) r

/-- A value as messages show it. -/
def display (st : Store) (v : Value) : String := v.display st.shown

/-- A value as plain text. -/
def plain (st : Store) (v : Value) : String := v.plain st.shown

/-- The wording of an error. -/
def message (st : Store) (e : ModelError) : String := e.message st.shown

end DbSchema.Store
