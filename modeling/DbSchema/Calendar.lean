import DbSchema.Number.Integer

/-!
# Dates and times

Calendar dates and times of day, with an optional offset from universal time, as they occur in
schema files.

## Main definitions

* `Date`, `DateTime` — the values; `Date.valid`, `DateTime.valid` say which exist.
* `Date.iso`, `DateTime.iso` — the standard text.
* `DateTime.minute` — the minute on one time line, for comparing times with an offset.
-/

namespace DbSchema

open Number

/-- A calendar date. -/
structure Date where
  year : Nat
  month : Nat
  day : Nat
deriving DecidableEq, Repr, Inhabited

/-- A date with a time of day and, when it is known, the offset from universal time in minutes. -/
structure DateTime where
  date : Date
  hour : Nat
  minute : Nat
  second : Nat
  microsecond : Nat
  offset : Option Int
deriving DecidableEq, Repr, Inhabited

/-- A number written with at least `width` digits. -/
def paddedDigits (width n : Nat) : String := String.ofList (padZeros width (Nat.toDigits 10 n))

namespace Date

/-- Whether a year has a 29th of February. -/
def isLeap (year : Nat) : Bool := year % 4 == 0 && (year % 100 != 0 || year % 400 == 0)

/-- The days of a month. -/
def daysIn (year month : Nat) : Nat :=
  if month = 2 then (if isLeap year then 29 else 28)
  else if month = 4 ∨ month = 6 ∨ month = 9 ∨ month = 11 then 30 else 31

/-- Whether the date exists. -/
def valid (d : Date) : Bool :=
  decide (1 ≤ d.year ∧ d.year ≤ 9999 ∧ 1 ≤ d.month ∧ d.month ≤ 12 ∧ 1 ≤ d.day) &&
    decide (d.day ≤ daysIn d.year d.month)

/-- The standard text of a date. -/
def iso (d : Date) : String :=
  paddedDigits 4 d.year ++ "-" ++ paddedDigits 2 d.month ++ "-" ++ paddedDigits 2 d.day

/-- The number of days before the given year. -/
def daysBeforeYear (year : Nat) : Nat :=
  let y := year - 1
  y * 365 + y / 4 - y / 100 + y / 400

/-- The number of days in the first months of a year. -/
def daysInMonths (year : Nat) : Nat → Nat
  | 0 => 0
  | m + 1 => daysInMonths year m + daysIn year (m + 1)

/-- The number of the date in a count of days. -/
def dayNumber (d : Date) : Nat :=
  daysBeforeYear d.year + daysInMonths d.year (d.month - 1) + d.day

end Date

namespace DateTime

/-- Whether the date and the time of day exist and the offset is less than a day. -/
def valid (t : DateTime) : Bool :=
  t.date.valid && decide (t.hour < 24 ∧ t.minute < 60 ∧ t.second < 60 ∧ t.microsecond < 1000000) &&
    (match t.offset with
      | none => true
      | some o => decide (o.natAbs < 1440))

/-- The text of an offset: sign, hours and minutes. -/
def offsetText (o : Int) : String :=
  (if o < 0 then "-" else "+") ++ paddedDigits 2 (o.natAbs / 60) ++ ":" ++
    paddedDigits 2 (o.natAbs % 60)

/-- The standard text of a date and time, with the given text between the two. -/
def iso (separator : String) (t : DateTime) : String :=
  t.date.iso ++ separator ++ paddedDigits 2 t.hour ++ ":" ++ paddedDigits 2 t.minute ++ ":" ++
    paddedDigits 2 t.second ++
    (if t.microsecond = 0 then "" else "." ++ paddedDigits 6 t.microsecond) ++
    (match t.offset with
      | none => ""
      | some o => offsetText o)

/-- The minute on one time line, after taking off the offset. -/
def timeline (t : DateTime) : Int :=
  ((t.date.dayNumber * 1440 + t.hour * 60 + t.minute : Nat) : Int) - t.offset.getD 0

/-- Equality of moments: two times with an offset agree when they are the same moment, and a time
without an offset never agrees with one that has it. -/
def same (t u : DateTime) : Bool :=
  t.offset.isSome == u.offset.isSome && t.timeline == u.timeline && t.second == u.second &&
    t.microsecond == u.microsecond

end DateTime

end DbSchema
