import DbSchema.Error.Fault

/-!
# Rows

A database answers a query with rows of named columns.  Rows come in four forms that differ in how
they may be asked.

## Main definitions

* `RowForm`, `Row` — the forms, and a row.
* `Row.item` — a column that must be there.
* `Row.get` — a column that may be missing.
* `Row.toMapping` — the columns of a row that is turned into a mapping.
* `Row.find` — a column of a row of any form.
-/

namespace DbSchema.Source

/-- The forms of rows. -/
inductive RowForm
  /-- Columns may be asked in every way. -/
  | mapping
  /-- Columns may be missing, and are only asked that way. -/
  | lookup
  /-- The row must be turned into a mapping first. -/
  | record
  /-- Columns must be there. -/
  | indexed
deriving DecidableEq, Repr, Inhabited

/-- A row of named columns. -/
structure Row where
  form : RowForm := .mapping
  columns : List (Value × Value)
deriving Repr, Inhabited

namespace Row

/-- A column of a row of any form, if it is there. -/
def find (r : Row) (column : String) : Option Value := Value.entry? column r.columns

/-- A column that must be there. -/
def item (r : Row) (column : String) : Except Fault Value :=
  match r.form with
  | .mapping | .indexed =>
    match r.find column with
    | some v => .ok v
    | none => .error (.missingKey (.text column))
  | .lookup | .record => .error .notIndexed

/-- A column that may be missing. -/
def get (r : Row) (column : String) : Except Fault (Option Value) :=
  match r.form with
  | .mapping | .lookup => .ok (r.find column)
  | .record | .indexed => .error (.noRowOperation "get")

/-- The columns of a row that must be turned into a mapping first. -/
def toMapping (r : Row) : Except Fault (List (Value × Value)) :=
  match r.form with
  | .record => .ok r.columns
  | .mapping | .lookup | .indexed => .error (.noRowOperation "asDict")

end Row

end DbSchema.Source
