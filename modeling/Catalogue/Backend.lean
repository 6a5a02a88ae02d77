import Catalogue.Fault
import Catalogue.Product.Basic
import Catalogue.Window

/-!
# Calls to the backends

The requests that the service makes of its store and of its cache, and what each is answered with.
-/

namespace Catalogue

/-- Requests to the cache, which holds texts of products under their identifiers. -/
inductive CacheCall where
  | get (id : Int64)
  | set (product : Product)
  | delete (id : Int64)
  | clear
  deriving DecidableEq, Repr

/-- What a cache call gives when it succeeds. -/
abbrev CacheCall.Value : CacheCall → Type
  | .get _ => String
  | .set _ | .delete _ | .clear => Unit

/-- Requests to the store. Updates and deletions give the row from before. -/
inductive StoreCall where
  | find (id : Int64)
  | list
  | page (window : Window)
  | insert (draft : Draft)
  | update (id : Int64) (draft : Draft)
  | delete (id : Int64)
  | purge
  | ping
  deriving DecidableEq, Repr

/-- What a store call gives when it succeeds. -/
abbrev StoreCall.Value : StoreCall → Type
  | .find _ | .update _ _ | .delete _ => Product
  | .list | .page _ => List Product
  | .insert _ => Int64
  | .purge => Nat
  | .ping => Unit

/-- A request to either backend. -/
inductive Call where
  | cache (call : CacheCall)
  | store (call : StoreCall)
  deriving DecidableEq, Repr

namespace Call

/-- The answers that a call may get. -/
abbrev Answer : Call → Type
  | .cache call => Except CacheError call.Value
  | .store call => Except StoreError call.Value

/-- The answer in place of a call that its deadline cut off. -/
def elapsed : (call : Call) → call.Answer
  | .cache _ => .error .elapsed
  | .store _ => .error .timeout

end Call

end Catalogue
