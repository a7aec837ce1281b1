import DbSchema.Error.Fault

/-!
# Why a stream cannot be read

A stream breaks a rule of the format, or holds a value that does not exist.

## Main definitions

* `Failure` — the two reasons.
-/

namespace DbSchema.Yaml

/-- Why a stream cannot be read: it breaks a rule of the format, or a value in it is faulty. -/
inductive Failure
  | malformed
  | fault (f : Fault)
deriving Repr, Inhabited

/-- The stream breaks a rule of the format. -/
def malformed {α : Type} : Except Failure α := .error .malformed

/-- A value of the stream is faulty. -/
def faulty {α : Type} (f : Fault) : Except Failure α := .error (.fault f)

end DbSchema.Yaml
