import DbSchema.Error.Model
import DbSchema.Settings.Sections
import DbSchema.Source.Vendor

/-!
# Errors of reading a database

Why a database cannot be read: there is no way to reach it, it is not among the known ones, or
something failed while it was read.

## Main definitions

* `SourceError` — the reasons.
* `SourceError.report?` — category, wording and details; what a driver reports itself has none.
-/

namespace DbSchema.Source

/-- The reasons why a database cannot be read. -/
inductive SourceError
  /-- A rule of the model is broken, or a value cannot be used. -/
  | model (e : ModelError)
  /-- The driver of the connection failed. -/
  | driver (message : String)
  /-- Something else than a rule stopped the reading. -/
  | stopped (vendor : Vendor) (cause : String)
  | unknownDriver
  | unsupported (driver : String)
  | noConnection
  | noCatalog
  | unsupportedScheme (scheme : String)
  | notInstalled (driver extra : String)
  /-- Settings are missing. -/
  | missingSettings (lines : List String)
  /-- The file of profiles cannot be read. -/
  | profiles (f : Settings.SectionsFault)
  /-- There is no such profile; the ones there are follow. -/
  | noProfile (name : String) (available : List String)
deriving Repr, Inhabited

namespace SourceError

/-- The category and the wording of an error that no rule of the model describes. -/
def words? : SourceError → Option (Category × String)
  | model _ | driver _ | unsupported _ | profiles _ => none
  | stopped vendor cause =>
    some (.introspection, vendor.label ++ " introspection failed: " ++ cause)
  | unknownDriver => some (.introspection, "Cannot determine database driver")
  | noConnection => some (.config, "No connection and no DSN given")
  | noCatalog => some (.config, "Databricks introspection needs a catalog and db_schema")
  | unsupportedScheme scheme =>
    some (.config, "Unsupported DSN scheme: " ++ Text.quote scheme)
  | notInstalled name extra =>
    some (.config, name ++ " not installed. Run: pip install 'sqlt[" ++ extra ++ "]'")
  | missingSettings lines =>
    some (.config, "\n  - ".intercalate ("Missing required configuration:" :: lines))
  | noProfile name available =>
    some (.config, "Profile '" ++ name ++ "' not found in ~/.databrickscfg. Available profiles: " ++
      ", ".intercalate available)

/-- Category, wording and details of an error. -/
def report? (shown : Ref → String) : SourceError → Option Report
  | model e => e.report? shown
  | unsupported name => Category.report? shown .unsupportedDatabase [.text name]
  | e => e.words?.map fun w => ⟨w.1, w.2, []⟩

/-- Whether an error belongs to no category; an error of the model does not where a fault comes
before it is told. -/
def isForeign : SourceError → Bool
  | model e => e.fault?.isSome
  | driver _ | profiles _ => true
  | _ => false

/-- The wording of an error. -/
def message (shown : Ref → String) : SourceError → String
  | model e => (e.fault?.map (·.message shown)).getD (e.message shown)
  | driver m => m
  | e => ((e.report? shown).map (·.message)).getD ""

end SourceError

end DbSchema.Source
