import Catalogue.Settings.Tree

/-!
# Settings before validation

Nine values, each of which may be left out. They are read from a tree with a table for each section;
values of other kinds are converted where that makes sense, and a value that does not convert, or a
section that is no table, spoils the whole tree. Values of the command line replace those of the
tree.
-/

namespace Catalogue.Settings

/-- The values that sources may give. -/
structure Raw where
  host : Option String := none
  port : Option UInt16 := none
  gracefulShutdown : Option UInt64 := none
  requestTimeout : Option UInt64 := none
  level : Option String := none
  json : Option Bool := none
  url : Option String := none
  maxConnections : Option UInt32 := none
  capacity : Option UInt64 := none
  deriving DecidableEq, Repr

/-- The values of one section under the names of its keys. A list gives them in the order of the
keys; a section that is left out, or an empty list, gives none. -/
def sectionOf? (root : Tree) (name : String) (keys : List String) :
    Option (List (String × Tree)) :=
  match root.get? name with
  | none => some []
  | some (.table entries) => some entries
  | some (.list items) => some (keys.zip items)
  | some _ => none

/-- Converts the value of a key, if there is one. The outer option is none where it does not
convert. -/
def field? {α : Type} (values : List (String × Tree)) (key : String) (convert : Tree → Option α) :
    Option (Option α) :=
  match values.lookup key with
  | none => some none
  | some .nothing => some none
  | some value => (convert value).map some

namespace Raw

/-- Reads the values of a tree. -/
def ofTree? (root : Tree) : Option Raw := do
  let server ← sectionOf? root "server"
    ["host", "port", "graceful_shutdown_seconds", "request_timeout_seconds"]
  let host ← field? server "host" Tree.toText?
  let port ← field? server "port" fun v => (v.toUnsigned? 16).map UInt16.ofNat
  let gracefulShutdown ← field? server "graceful_shutdown_seconds" fun v =>
    (v.toUnsigned? 64).map UInt64.ofNat
  let requestTimeout ← field? server "request_timeout_seconds" fun v =>
    (v.toUnsigned? 64).map UInt64.ofNat
  let logging ← sectionOf? root "logging" ["level", "json"]
  let level ← field? logging "level" Tree.toText?
  let json ← field? logging "json" Tree.toBool?
  let database ← sectionOf? root "database" ["url", "max_connections"]
  let url ← field? database "url" Tree.toText?
  let maxConnections ← field? database "max_connections" fun v =>
    (v.toUnsigned? 32).map UInt32.ofNat
  let cache ← sectionOf? root "cache" ["capacity"]
  let capacity ← field? cache "capacity" fun v => (v.toUnsigned? 64).map UInt64.ofNat
  return {
    host, port, gracefulShutdown, requestTimeout, level, json, url, maxConnections, capacity }

/-- Values laid over others: what the first leaves out is taken from the second. -/
def orElse (first second : Raw) : Raw :=
  { host := first.host.or second.host
    port := first.port.or second.port
    gracefulShutdown := first.gracefulShutdown.or second.gracefulShutdown
    requestTimeout := first.requestTimeout.or second.requestTimeout
    level := first.level.or second.level
    json := first.json.or second.json
    url := first.url.or second.url
    maxConnections := first.maxConnections.or second.maxConnections
    capacity := first.capacity.or second.capacity }

end Raw

end Catalogue.Settings
