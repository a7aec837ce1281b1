import DbSchema.Cli.Run
import DbSchema.Source.Dsn

/-!
# The program

The command line.  What stands on standard input is the file at the path of the command; the
environment is that of the process.  No driver is built in, so no database can be reached.
-/

namespace DbSchema.Cli

open Source (Access Opening SourceError Target)

/-- The program without any driver: a data source name is understood, and then refused. -/
def noDrivers : Access
  | .database dsn user password =>
    match Source.openingOf [] dsn user password with
    | .error e => .error e
    | .ok _ => .error (.notInstalled Source.Vendor.sqlite.driver "sqlite")
  | .workspace _ _ => .error (.notInstalled Source.Vendor.databricks.driver "databricks")

/-- The variables of the environment that are looked at. -/
def variableNames : List String :=
  ["SQLT_DSN", "SQLT_DB_USER", "SQLT_DB_PASSWORD", "SQLT_DB_SCHEMA", "SQLT_CATALOG",
    "DATABRICKS_HOST", "DATABRICKS_TOKEN", Settings.profileVariable]

/-- The path of the file that a command reads, if it reads one. -/
def Command.source? : Command → Option String
  | .pull .. => none
  | .check path | .display path _ => some path

/-- A world that holds one file. -/
def worldWith (environment : Settings.Environment) (file : Option (String × String)) : World :=
  let entries := file.toList.map fun f => (Path.ofText f.1, Entry.file f.2)
  { folder := .ofEntries [] entries, environment, access := noDrivers }

/-- How the program is called. -/
def usage : String := "usage: dbschema [-h] [--verbose] (pull | validate | show) ..."

/-- Runs the command that the arguments describe, and gives its code. -/
def runProgram (args : List String) : IO UInt32 := do
  match Invocation.parse args with
  | .error .help =>
    IO.println usage
    return 0
  | .error .wrong =>
    IO.eprintln usage
    return 2
  | .ok invocation =>
    let values ← variableNames.mapM fun name => do
      return (← IO.getEnv name).map fun v => (name, v)
    let file ← invocation.command.source?.mapM fun path => do
      return (path, ← (← IO.getStdin).readToEnd)
    match run (worldWith (values.filterMap id) file) invocation with
    | .error e =>
      IO.eprintln (e.message fun _ => "")
      return 1
    | .ok outcome =>
      IO.print outcome.output
      IO.eprint outcome.messages
      return UInt32.ofNat outcome.code

end DbSchema.Cli

/-- Runs the command line. -/
def main (args : List String) : IO UInt32 := DbSchema.Cli.runProgram args
