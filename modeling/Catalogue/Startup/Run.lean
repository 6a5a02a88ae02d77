import Catalogue.Settings.Sources
import Catalogue.Startup.DatabaseUrl
import Catalogue.Startup.Failure
import Catalogue.Startup.LogFilter
import Catalogue.Startup.LogLine

/-!
# From the command line to a migrated database

The process reads its command line and its settings, sets up the log, and applies migrations. After
that it is done, or it serves. A failure is logged as an error. As long as there are no settings,
there is no filter and errors are logged in words.
-/

namespace Catalogue.Startup

/-- The version of the program. -/
def version : String := "0.1.0"

/-- The name of the program. -/
def programName : String := "product-service"

/-- The flags of a command, each on a line of its own. -/
def flagLines (command : Option Settings.Command) : List String :=
  (Settings.Flag.known command).map fun flag => s!"  --{flag.name} <VALUE>"

/-- How the program is called. -/
def usage : String :=
  "\n".intercalate <|
    [s!"Usage: {programName} [OPTIONS] [COMMAND]", "", "Options:"] ++ flagLines none ++
    ["", "Command serve, which is the default:"] ++ flagLines (some .serve) ++
    ["", "Command migrate:"] ++ flagLines (some .migrate)

/-- The target of the failures of the process. -/
def target : String := "product_service"

/-- The variable with the directives of the log filter. -/
def filterVariable : String := "RUST_LOG"

/-- How a database treats the statements of migrations. -/
inductive Server where
  | accepting
  | refusing (detail code : String)
  | unreachable
  deriving DecidableEq, Repr

/-- How far the process has come. -/
inductive Status where
  | exited (code : Nat)
  | serving (settings : Settings)

/-- What the process has to show: its status, what it logged, and what was asked of it about itself.
-/
structure Report where
  status : Status
  lines : List String := []
  version : Option String := none
  usage : Option String := none

/-- The event of a failure. -/
def failureEvent (failure : Failure) : Event :=
  { level := .error, target, message := "application error"
    fields := [("error", .text failure.message)] }

/-- The event of applied migrations. -/
def migratedEvent : Event :=
  { level := .info, target := "products::migrate", message := "Migrations applied", fields := [] }

/-- Connects to the database of the settings and applies migrations. -/
def migrate (settings : Settings) (serverAt : String → Server) : Except Failure Unit :=
  match settings.url with
  | none => .error .noDatabase
  | some url =>
    match urlFlaw? url with
    | some flaw => .error (.ofDriver flaw.error)
    | none =>
      match serverAt url with
      | .unreachable => .error (.ofDriver .poolTimedOut)
      | .refusing detail code => .error (.migration (.execution (.database detail code)))
      | .accepting => .ok ()

/-- The lines of events that pass the filter of a process. -/
def logged (sources : Settings.Sources) (settings : Settings) (events : List Event) : List String :=
  let filter := LogFilter.ofText (sources.environment.lookup filterVariable) settings.level
  (events.filter fun e => filter.allows e.level e.target).map fun e => e.line settings.format

/-- Runs the process with its settings. -/
def runWith (sources : Settings.Sources) (settings : Settings) (command : Option Settings.Command)
    (serverAt : String → Server) : Report :=
  match migrate settings serverAt with
  | .error failure =>
    { status := .exited 1, lines := logged sources settings [failureEvent failure] }
  | .ok () =>
    match command with
    | some .migrate => { status := .exited 0, lines := logged sources settings [migratedEvent] }
    | _ => { status := .serving settings }

/-- Runs the process, where `serverAt` tells how the database under a URL behaves. -/
def run (sources : Settings.Sources) (arguments : List String) (serverAt : String → Server) :
    Report :=
  match Settings.Invocation.read sources arguments with
  | .error .help => { status := .exited 0, usage := some usage }
  | .error .version => { status := .exited 0, version := some version }
  | .error _ => { status := .exited 2 }
  | .ok invocation =>
    match Settings.load sources invocation with
    | .error e => { status := .exited 1, lines := [(failureEvent (.ofLoad e)).compactLine] }
    | .ok settings => runWith sources settings invocation.command serverAt

end Catalogue.Startup
