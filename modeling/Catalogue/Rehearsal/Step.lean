import Catalogue.Http.AccessLog
import Catalogue.Operation
import Catalogue.Rehearsal.World

/-!
# Steps of a rehearsal

A step is an operation of the service, an HTTP request, or a change of the world behind the
service's back. What can be observed of a step is its result, the calls and events that it led to,
how the backends look behind it, and how long it took.
-/

namespace Catalogue.Rehearsal

/-- A step. Times are how long its calls may take. -/
inductive Step where
  | operation (requestId : String) (timeout : Option Nat) (operation : Operation)
  | badWindow (flaw : WindowFlaw)
  | request (timeout : Option Nat) (request : Http.Request)
  | cacheGet (id : Int64)
  | cacheSet (product : Product)
  | cacheDelete (id : Int64)
  | cacheClear
  | cacheContains (id : Int64)
  | cacheIsEmpty
  | setRule (point : Point) (rule : Option Rule)
  | putRow (row : Product)
  | removeRow (id : Int64)

/-- The result of a step. -/
inductive StepResult where
  | outcome (operation : Operation) (outcome : Outcome operation.Value)
  | badWindow (flaw : WindowFlaw)
  | response (response : Http.Response)
  | cached (answer : Except CacheError String)
  | dropped (answer : Except CacheError Unit)
  | truth (value : Bool)
  | done

namespace World

/-- The time at which a deadline is, if there is one. -/
def deadline (world : World) (timeout : Option Nat) : Option Nat := timeout.map (world.now + ·)

/-- Takes a step. -/
def step (world : World) : Step → Option (StepResult × World)
  | .operation requestId timeout operation =>
    (run (world.deadline timeout) (operation.program requestId) world).map fun (outcome, world) =>
      (.outcome operation outcome, world)
  | .badWindow flaw => some (.badWindow flaw, world)
  | .request timeout request =>
    (run (world.deadline timeout) (Http.serveLogged "" request) world).map fun (response, world) =>
      (.response response, world)
  | .cacheGet id =>
    let (answer, world) := world.cacheGet id
    some (.cached answer, world)
  | .cacheSet product => some (.done, world.cacheSet product)
  | .cacheDelete id =>
    let (answer, world) := world.cacheDelete id
    some (.dropped answer, world)
  | .cacheClear => some (.done, world.cacheClear)
  | .cacheContains id => some (.truth (world.cache.contains id), world)
  | .cacheIsEmpty => some (.truth world.cache.entries.isEmpty, world)
  | .setRule point rule => some (.done, { world with rules := world.rules.set point rule })
  | .putRow row => some (.done, { world with store := world.store.put row })
  | .removeRow id =>
    some (.truth (world.store.row? id).isSome, { world with store := world.store.remove id })

end World

/-- What can be observed of a step. -/
structure Observation where
  result : StepResult
  events : List Event
  calls : List Call
  cached : List Int64
  cacheSize : Nat
  rows : List Int64
  elapsed : Nat

/-- Takes a step and observes it. -/
def World.observe (world : World) (step : Step) : Option (Observation × World) :=
  let silent : World := { world with calls := [], events := [] }
  (silent.step step).map fun (result, after) =>
    ({ result
       events := after.events.reverse
       calls := after.calls.reverse
       cached := (after.cache.entries.map (·.1)).mergeSort
       cacheSize := after.cache.size
       rows := after.store.rows.map Product.id
       elapsed := after.now - world.now }, after)

/-- Takes steps one after another. There is no world behind a step that never ends. -/
def World.rehearse (world : World) : List Step → Option (List Observation × World)
  | [] => some ([], world)
  | step :: rest => do
    let (observation, world) ← world.observe step
    let (observations, world) ← world.rehearse rest
    return (observation :: observations, world)

end Catalogue.Rehearsal
