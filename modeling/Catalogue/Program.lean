import Catalogue.Backend
import Catalogue.Event

/-!
# Operations in progress

An operation is a tree: it has ended, or it asks a backend and goes on with the answer, or it logs
an event and goes on. The same tree can be run to its end, stopped between two calls, or run in
turns with others.
-/

namespace Catalogue

/-- An operation in progress that ends with a value of type `α`. -/
inductive Program (α : Type) : Type where
  | done (value : α)
  | ask (call : Call) (next : call.Answer → Program α)
  | log (event : Event) (rest : Program α)

namespace Program

variable {α β : Type}

/-- Goes on with `f` when the operation has ended. -/
def bind : Program α → (α → Program β) → Program β
  | .done value, f => f value
  | .ask call next, f => .ask call fun answer => (next answer).bind f
  | .log event rest, f => .log event (rest.bind f)

instance : Monad Program where
  pure := .done
  bind := bind

/-- Asks the cache. -/
def cache (call : CacheCall) : Program (Except CacheError call.Value) := .ask (.cache call) .done

/-- Asks the store. -/
def store (call : StoreCall) : Program (Except StoreError call.Value) := .ask (.store call) .done

/-- Logs an event. -/
def note (event : Event) : Program Unit := .log event (.done ())

end Program

end Catalogue
