import Catalogue.Settings.Address
import Catalogue.Settings.Raw
import Catalogue.Settings.Verbosity
import Catalogue.Text.Blank

/-!
# Settings

Values that were left out have defaults. What has to be positive is checked, host and port have to
make an address, and the level has to be one; the first violation in a fixed order is reported. A
timeout of zero means that there is none, and a blank URL that there is none.
-/

namespace Catalogue

/-- The forms of the log. -/
inductive LogFormat where
  | json
  | compact
  deriving DecidableEq, Repr

/-- The word for a form. -/
def LogFormat.word : LogFormat → String
  | .json => "json"
  | .compact => "compact"

/-- Settings that the service can run with. Times are in seconds. -/
structure Settings where
  address : SocketAddress
  gracefulShutdown : UInt64
  requestTimeout : Option UInt64
  level : Verbosity
  format : LogFormat
  url : Option String
  maxConnections : UInt32
  capacity : UInt64
  deriving DecidableEq, Repr

namespace Settings

/-- Rules that values may violate. -/
inductive Violation where
  | zeroPort
  | badAddress (candidate : String)
  | zeroGracefulShutdown
  | badLevel
  | zeroMaxConnections
  | zeroCapacity
  deriving DecidableEq, Repr

namespace Violation

/-- The key whose value violates the rule. -/
def key : Violation → String
  | .zeroPort => "server.port"
  | .badAddress _ => "server.addr"
  | .zeroGracefulShutdown => "server.graceful_shutdown_seconds"
  | .badLevel => "logging.level"
  | .zeroMaxConnections => "database.max_connections"
  | .zeroCapacity => "cache.capacity"

/-- What is wrong with the value. -/
def reason : Violation → String
  | .zeroPort => "port must be greater than zero"
  | .badAddress candidate => s!"invalid address `{candidate}`: invalid socket address syntax"
  | .badLevel => s!"failed to parse: {Verbosity.refusal}"
  | .zeroGracefulShutdown | .zeroMaxConnections | .zeroCapacity => "must be greater than zero"

end Violation

/-- Why there are no settings: sources could not be read, or a value violates a rule. -/
inductive LoadError where
  | build
  | invalid (violation : Violation)
  deriving DecidableEq, Repr

/-- The wording of a refused value. -/
def invalidMessage (key reason : String) : String :=
  s!"invalid configuration for `{key}`: {reason}"

/-- The wording of a failure to load settings. -/
def LoadError.message : LoadError → String
  | .build => "failed to build configuration"
  | .invalid violation => invalidMessage violation.key violation.reason

/-- The text of a host and a port as an address is written. -/
def hostPort (host : String) (port : UInt16) : String :=
  String.ofList (host.toList ++ ':' :: Numeral.ofNat port.toNat)

/-- A URL without the blanks around it, none if nothing is left. -/
def trimmedUrl? (url : String) : Option String :=
  let trimmed := Text.trim url
  if trimmed.isEmpty then none else some trimmed

/-- The level that was asked for. -/
def levelOf (text : Option String) : Except Violation Verbosity :=
  match text with
  | none => .ok (.upTo .info)
  | some text =>
    match Verbosity.read? text with
    | some level => .ok level
    | none => .error .badLevel

/-- Validates values, with defaults for those left out. -/
def ofRaw (raw : Raw) : Except Violation Settings := do
  let host := raw.host.getD "127.0.0.1"
  let port := raw.port.getD 8080
  if port = 0 then throw .zeroPort
  let some address := SocketAddress.ofHostPort? host port.toNat
    | throw (.badAddress (hostPort host port))
  let gracefulShutdown := raw.gracefulShutdown.getD 30
  if gracefulShutdown = 0 then throw .zeroGracefulShutdown
  let timeout := raw.requestTimeout.getD 10
  let level ← levelOf raw.level
  let maxConnections := raw.maxConnections.getD 8
  if maxConnections = 0 then throw .zeroMaxConnections
  let capacity := raw.capacity.getD 10000
  if capacity = 0 then throw .zeroCapacity
  return {
    address, gracefulShutdown, level, maxConnections, capacity
    requestTimeout := if timeout = 0 then none else some timeout
    format := if raw.json.getD false then .json else .compact
    url := raw.url.bind trimmedUrl? }

end Settings

end Catalogue
