import Catalogue.Service

/-!
# The operations of the service

What callers may ask of the service, each with the type of the value that it gives.
-/

namespace Catalogue

/-- A request to the service. -/
inductive Operation where
  | fetch (id : Int64)
  | list
  | page (window : Window)
  | create (draft : Draft)
  | update (id : Int64) (draft : Draft)
  | delete (id : Int64)
  | deleteAll
  | ping
  deriving DecidableEq, Repr

namespace Operation

/-- What an operation gives when it succeeds. -/
abbrev Value : Operation → Type
  | .fetch _ => String
  | .list | .page _ => List Product
  | .create _ => Int64
  | .update _ _ | .delete _ => Product
  | .deleteAll => Nat
  | .ping => Unit

/-- The run of an operation. -/
def program (requestId : String) : (operation : Operation) → Program (Outcome operation.Value)
  | .fetch id => Service.fetch requestId id
  | .list => Service.list
  | .page window => Service.page window
  | .create draft => Service.create requestId draft
  | .update id draft => Service.update id draft
  | .delete id => Service.delete id
  | .deleteAll => Service.deleteAll requestId
  | .ping => do
    match ← Service.ping with
    | .ok () => return Outcome.clean ()
    | .error failure => return .error failure

end Operation

end Catalogue
