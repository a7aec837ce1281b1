import DbSchema.Cli.Arguments
import DbSchema.Settings.Basic

/-!
# Commands

The program reads a database, checks schema files or shows them.  Options that concern all commands
stand before the command, its own options after it.

## Main definitions

* `Command`, `Invocation` — what is to be done, and how much is told about it.
* `Invocation.parse` — the invocation that a list of arguments describes.
-/

namespace DbSchema.Cli

/-- What is to be done. -/
inductive Command
  | pull (given : Settings) (profile output : Option String)
  | check (path : String)
  | display (path : String) (table : Option String)
deriving DecidableEq, Repr, Inhabited

/-- What is to be done, and whether every detail of it is told. -/
structure Invocation where
  verbose : Bool
  command : Command
deriving DecidableEq, Repr, Inhabited

/-- The options that ask for help. -/
def helpOptions : Grammar := [("-h", .help), ("--help", .help)]

/-- The options before the command. -/
def commonOptions : Grammar :=
  helpOptions ++ [("--verbose", .flag "verbose"), ("-v", .flag "verbose")]

/-- Options with values, each named for its value. -/
def valueOptions (names : List String) : Grammar :=
  helpOptions ++ names.map fun name => ("--" ++ name, .value name)

/-- Where schema files are looked for if nothing else is said. -/
def defaultPath : String := "schema"

/-- The command with a name, given what its options say. -/
def command? : String → Option (Grammar × (Values → Command))
  | "pull" =>
    some (valueOptions ["dsn", "user", "password", "db-schema", "catalog", "profile", "output"],
      fun v => .pull
        { dsn := v.text? "dsn"
          user := v.text? "user"
          password := v.text? "password"
          namespaceName := v.text? "db-schema"
          catalog := v.text? "catalog" }
        (v.text? "profile") (v.text? "output"))
  | "validate" =>
    some (valueOptions ["schema-path"], fun v => .check ((v.text? "schema-path").getD defaultPath))
  | "show" =>
    some (valueOptions ["schema-path", "table"], fun v =>
      .display ((v.text? "schema-path").getD defaultPath) (v.text? "table"))
  | _ => none

namespace Invocation

/-- The invocation that a list of arguments describes. -/
def parse (args : List String) : Except Refusal Invocation := do
  let (common, rest) ← commonOptions.readWords false {} (← commonOptions.words args)
  match rest with
  | [] => throw .wrong
  | name :: rest =>
    match command? name with
    | none => throw .wrong
    | some (grammar, build) =>
      let (own, _) ← grammar.readWords true {} (← grammar.words rest)
      if common.surplus || own.surplus then throw .wrong
      return ⟨common.flags.contains "verbose", build own⟩

end Invocation

end DbSchema.Cli
