import DbSchema.Text.Letters
import DbSchema.Value.Display

/-!
# Vendors

The databases that can be read, each known by the name of its driver.

## Main definitions

* `Vendor` — the databases, with `Vendor.label` and `Vendor.driver`.
* `Vendor.ofDriver?` — the database that a driver belongs to.
-/

namespace DbSchema.Source

/-- The databases that can be read. -/
inductive Vendor
  | sqlite
  | postgres
  | mysql
  | databricks
deriving DecidableEq, Repr, Inhabited

namespace Vendor

/-- All databases. -/
def all : List Vendor := [sqlite, postgres, mysql, databricks]

/-- The name of a database. -/
def label : Vendor → String
  | sqlite => "SQLite"
  | postgres => "PostgreSQL"
  | mysql => "MySQL"
  | databricks => "Databricks"

/-- The name of a database's driver in lower case. -/
def driver : Vendor → String
  | sqlite => "sqlite3"
  | postgres => "psycopg2"
  | mysql => "pymysql"
  | databricks => "databricks"

/-- The database that a driver belongs to, whatever the case of its name. -/
def ofDriver? (name : String) : Option Vendor := all.find? (·.driver == Text.lower name)

end Vendor

/-- The name of the driver behind a connection: the one it gives itself unless that counts as
false, or else the first part of the name of the module it comes from. -/
def driverName (shown : Ref → String) (given : Value) (module : String) : String :=
  if given.truthy then given.plain shown
  else String.ofList (module.toList.takeWhile (· != '.'))

end DbSchema.Source
