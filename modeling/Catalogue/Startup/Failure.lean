import Catalogue.Settings.Basic
import Catalogue.Sql.DriverError

/-!
# What keeps the process from running

A failure of the process says which part of it failed, and then how.
-/

namespace Catalogue.Startup

/-- Why migrations were not applied. -/
inductive MigrationFlaw where
  | execution (error : Sql.DriverError)
  | versionMissing (version : Int64)

/-- The wording of a failed migration. -/
def MigrationFlaw.message : MigrationFlaw → String
  | .execution error => s!"while executing migrations: {error.message}"
  | .versionMissing version =>
    s!"migration {version.toInt} was previously applied but is missing in the resolved migrations"

/-- Failures of the process. -/
inductive Failure where
  | io (detail : String)
  | database (detail : String)
  | migration (flaw : MigrationFlaw)
  | telemetry (detail : String)
  | configuration (detail : String)
  | unexpected (detail : String)

namespace Failure

/-- The wording of a failure. -/
def message : Failure → String
  | .io detail => s!"io error: {detail}"
  | .database detail => s!"database error: {detail}"
  | .migration flaw => s!"migration failed: {flaw.message}"
  | .telemetry detail => s!"telemetry initialization failed: {detail}"
  | .configuration detail => s!"configuration error: {detail}"
  | .unexpected detail => s!"unexpected error: {detail}"

/-- The failure of a driver before any statement is executed. -/
def ofDriver (error : Sql.DriverError) : Failure := .database error.message

/-- The failure to load settings. -/
def ofLoad (error : Settings.LoadError) : Failure :=
  .unexpected s!"failed to load configuration: {error.message}"

/-- The failure of settings that name no database. -/
def noDatabase : Failure := .configuration "database url is not configured"

end Failure

end Catalogue.Startup
