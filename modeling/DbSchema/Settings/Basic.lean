import DbSchema.Settings.Profile

/-!
# Settings

What is known of the database to read, gathered from three places: what the caller says, the
environment, and a profile.  The first place that says anything decides.

## Main definitions

* `Settings` — what is known.
* `Settings.resolve` — the settings that the three places give.
* `Settings.usesWorkspace` — whether the database is a catalog of a workspace.
* `Settings.check` — whether enough is known to reach the database.
-/

namespace DbSchema

open Source (SourceError)

/-- What is known of the database to read. -/
structure Settings where
  dsn : Option String := none
  user : Option String := none
  password : Option String := none
  /-- The schema inside the database. -/
  namespaceName : Option String := none
  catalog : Option String := none
  host : Option String := none
  token : Option String := none
deriving DecidableEq, Repr, Inhabited

namespace Settings

/-- The variables of an environment. -/
abbrev Environment := List (String × String)

/-- The variable that names the profile to use. -/
def profileVariable : String := "DATABRICKS_CONFIG_PROFILE"

/-- What the caller says, or else what a variable says, or else the profile. -/
def choose (env : Environment) (given : Option String) (variableName : String)
    (profile : Option String) : Option String :=
  (given.or (env.lookup variableName)).or profile

/-- The name of the profile to use: the given one unless it is empty, or the one of the
environment, or the common one. -/
def profileName (env : Environment) (given : Option String) : String :=
  match given with
  | some name => if name = "" then ofEnvironment else name
  | none => ofEnvironment
where
  ofEnvironment : String := (env.lookup profileVariable).getD commonSection

/-- The profile to use.  One that the caller did not name may be missing. -/
def findProfile (env : Environment) (file : Option String) (given : Option String) :
    Except SourceError Profile :=
  match Profile.load file (profileName env given), given with
  | .error (.noProfile _ _), none => .ok {}
  | result, _ => result

/-- The settings that the caller, the environment and a profile give. -/
def resolve (env : Environment) (file : Option String) (given : Settings)
    (profile : Option String) : Except SourceError Settings := do
  let p ← findProfile env file profile
  return {
    dsn := choose env given.dsn "SQLT_DSN" none
    user := choose env given.user "SQLT_DB_USER" none
    password := choose env given.password "SQLT_DB_PASSWORD" none
    namespaceName := choose env given.namespaceName "SQLT_DB_SCHEMA" none
    catalog := choose env given.catalog "SQLT_CATALOG" none
    host := choose env given.host "DATABRICKS_HOST" p.host
    token := choose env given.token "DATABRICKS_TOKEN" p.token }

/-- Whether a setting says anything. -/
def isGiven (setting : Option String) : Bool := setting.any (· != "")

/-- Whether the database is a catalog of a workspace: a data source name goes first. -/
def usesWorkspace (s : Settings) : Bool := !isGiven s.dsn && isGiven s.catalog

/-- What is missing when neither a data source name nor a catalog is known. -/
def noTarget : List String :=
  ["dsn (use --dsn or SQLT_DSN), or", "catalog (use --catalog or SQLT_CATALOG) for Databricks"]

/-- What is missing to reach a catalog. -/
def missing (s : Settings) : List String :=
  [(s.namespaceName, "db_schema (use --db-schema or SQLT_DB_SCHEMA)"),
    (s.host, "databricks_host (use --profile or DATABRICKS_HOST)"),
    (s.token, "databricks_token (use --profile or DATABRICKS_TOKEN)")].filterMap fun e =>
      if isGiven e.1 then none else some e.2

/-- Whether enough is known to reach the database. -/
def check (s : Settings) : Except SourceError Unit :=
  if isGiven s.dsn then .ok ()
  else if !isGiven s.catalog then .error (.missingSettings noTarget)
  else if s.missing.isEmpty then .ok ()
  else .error (.missingSettings s.missing)

end Settings

end DbSchema
