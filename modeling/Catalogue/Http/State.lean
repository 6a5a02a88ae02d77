import Catalogue.Deadline
import Catalogue.Settings.Basic

/-!
# What the handlers share

A request that a handler takes starts a context of its own when it arrives. How long it may take is
the same for all requests of a process.
-/

namespace Catalogue.Http

/-- What the handlers share besides the service: how long a request may take, in milliseconds. -/
structure ApiState where
  requestTimeout : Option Nat
  deriving DecidableEq, Repr

namespace ApiState

/-- The state of a process that runs with some settings, which give times in seconds. -/
def ofSettings (settings : Settings) : ApiState :=
  ⟨settings.requestTimeout.map fun seconds => seconds.toNat * 1000⟩

/-- The context of a request that arrives at `now`, if the clock can hold its deadline. -/
def callContext? (state : ApiState) (requestId : String) (now : Nat) : Option CallContext :=
  CallContext.start? requestId now state.requestTimeout

end ApiState

end Catalogue.Http
