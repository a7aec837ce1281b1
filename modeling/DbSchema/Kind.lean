import DbSchema.Text.Blank
import DbSchema.Text.Letters

/-!
# Kinds of constraints and indices

Both kinds are closed sets whose members have a label.  A label may be written in any case, with
underscores for spaces and with any amount of white space between its words.

## Main definitions

* `ConstraintKind`, `IndexKind` — the members.
* `ConstraintKind.label`, `IndexKind.label` — how a member is written in a schema file.
* `ConstraintKind.ofText?`, `IndexKind.ofText?` — the member that a spelling names.
-/

namespace DbSchema

open Text

/-- Kinds of table constraints. -/
inductive ConstraintKind
  | primaryKey
  | unique
  | foreignKey
  | check
  | notNull
deriving DecidableEq, Repr, Inhabited

/-- Kinds of indices. -/
inductive IndexKind
  | normal
  | unique
  | fulltext
  | spatial
deriving DecidableEq, Repr, Inhabited

/-- The spelling that labels are compared in: single spaces, no underscores, upper case. -/
def canonicalLabel (s : String) : String :=
  upper (" ".intercalate (words (String.ofList (replaceChar '_' [' '] s.toList))))

namespace ConstraintKind

/-- Every kind, in order of declaration. -/
def all : List ConstraintKind := [primaryKey, unique, foreignKey, check, notNull]

/-- How a kind is written. -/
def label : ConstraintKind → String
  | primaryKey => "PRIMARY KEY"
  | unique => "UNIQUE"
  | foreignKey => "FOREIGN KEY"
  | check => "CHECK"
  | notNull => "NOT NULL"

/-- The name of a member: its label with underscores for spaces. -/
def memberName (k : ConstraintKind) : String :=
  String.ofList (replaceChar ' ' ['_'] k.label.toList)

/-- The kind that a spelling names. -/
def ofText? (s : String) : Option ConstraintKind :=
  all.find? fun k => k.label == canonicalLabel s

end ConstraintKind

namespace IndexKind

/-- Every kind, in order of declaration. -/
def all : List IndexKind := [normal, unique, fulltext, spatial]

/-- How a kind is written. -/
def label : IndexKind → String
  | normal => "NORMAL"
  | unique => "UNIQUE"
  | fulltext => "FULLTEXT"
  | spatial => "SPATIAL"

/-- The name of a member, which is its label. -/
def memberName (k : IndexKind) : String := k.label

/-- The kind that a spelling names. -/
def ofText? (s : String) : Option IndexKind :=
  all.find? fun k => k.label == canonicalLabel s

end IndexKind

end DbSchema
