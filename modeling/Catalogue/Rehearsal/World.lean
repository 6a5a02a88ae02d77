import Catalogue.Cache
import Catalogue.MemoryStore
import Catalogue.Program
import Catalogue.Rehearsal.Rule

/-!
# A world to rehearse in

The store is in memory, the cache is the real one, rules disturb the calls to both, and time only
moves when a call waits. A call that its deadline cuts off leaves no trace but that it was made. A
call that never ends leaves nothing to observe, so there is no world behind it.
-/

namespace Catalogue.Rehearsal

/-- The state of both backends, the rules, the time, and what has happened: calls and events, latest
first. -/
structure World where
  store : MemoryStore := {}
  cache : Cache
  rules : Rules := []
  alwaysReachable : Bool := false
  now : Nat := 0
  calls : List Call := []
  events : List Event := []

namespace World

/-- Logs an event. -/
def note (world : World) (event : Event) : World := { world with events := event :: world.events }

/-- Sets the text of a product in the cache, which may drop another. -/
def cacheSet (world : World) (product : Product) : World :=
  let (victim, cache) := world.cache.set product
  let world := { world with cache }
  match victim with
  | some id => world.note (Cache.evictionEvent id)
  | none => world

/-- Looks a product up in the cache. -/
def cacheGet (world : World) (id : Int64) : Except CacheError String × World :=
  let (answer, cache) := world.cache.get id
  (answer, { world with cache })

/-- Drops a product from the cache. -/
def cacheDelete (world : World) (id : Int64) : Except CacheError Unit × World :=
  let (answer, cache) := world.cache.delete id
  (answer, { world with cache })

/-- Drops all products from the cache. -/
def cacheClear (world : World) : World := { world with cache := world.cache.clear }

/-- What the backends do at a call, undisturbed. -/
def act (world : World) : (call : Call) → call.Answer × World
  | .store call =>
    let (answer, store) := world.store.answer call
    (answer, { world with store })
  | .cache (.get id) => world.cacheGet id
  | .cache (.set product) => (.ok (), world.cacheSet product)
  | .cache (.delete id) => world.cacheDelete id
  | .cache .clear => (.ok (), world.cacheClear)

/-- What happens at a call once it no longer waits. -/
def respond (world : World) (instead : Option Instead) (call : Call) : call.Answer × World :=
  match instead.bind fun i => i.answer? call with
  | some answer => (answer, world)
  | none => world.act call

/-- The world in which a call has been made and its rule has been used. -/
def begin (world : World) (call : Call) : World :=
  let point := Point.ofCall call
  let rules :=
    match world.rules.rule? point with
    | some rule => world.rules.set point rule.used
    | none => world.rules
  { world with rules, calls := call :: world.calls }

/-- Makes a call under a deadline. -/
def perform (deadline : Option Nat) (world : World) (call : Call) : Option (call.Answer × World) :=
  let rule := (world.rules.rule? (.ofCall call)).getD {}
  let begun := world.begin call
  match rule.delay.ending deadline world.now with
  | .finished time => some ({ begun with now := time }.respond rule.instead call)
  | .elapsed time => some (call.elapsed, { begun with now := time })
  | .never => none

/-- Makes a call of the service. A store that is always reachable is not asked whether it is. -/
def ask (deadline : Option Nat) (world : World) (call : Call) : Option (call.Answer × World) :=
  match call with
  | .store .ping =>
    if world.alwaysReachable then some (.ok (), world)
    else perform deadline world (.store .ping)
  | call => perform deadline world call

/-- Runs an operation to its end. -/
def run {α : Type} (deadline : Option Nat) : Program α → World → Option (α × World)
  | .done value, world => some (value, world)
  | .ask call next, world =>
    match ask deadline world call with
    | some (answer, world) => run deadline (next answer) world
    | none => none
  | .log event rest, world => run deadline rest (world.note event)

end World

end Catalogue.Rehearsal
