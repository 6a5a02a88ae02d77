import Catalogue.Program
import Catalogue.Product.Encode

/-!
# The product service

Reads ask the cache first and put what the store gives into it. Creating writes the store and then
the cache. Updating and deleting drop the cached text before they touch the store, and deleting
everything clears the cache first. Faults of the cache are warnings except where a text has to be
dropped; faults of the store always decide the outcome.
-/

namespace Catalogue.Service

/-- The target of the service's events. -/
def target : String := "products::service"

/-- An event about one product. -/
def productEvent (level : Level) (message : String) (id : Int64) (requestId : String)
    (error : Option CacheError) : Event :=
  { level, target, message
    fields := [("id", .number id.toInt), ("request_id", .text requestId)] ++
      error.toList.map fun e => ("error", .text e.message) }

/-- The cache had the product. -/
def hitEvent (id : Int64) (requestId : String) : Event :=
  productEvent .debug "cache hit" id requestId none

/-- The cache did not have the product. -/
def missEvent (id : Int64) (requestId : String) : Event :=
  productEvent .debug "cache miss" id requestId none

/-- The cache failed to look the product up. -/
def readFailedEvent (id : Int64) (requestId : String) (error : CacheError) : Event :=
  productEvent .warn "cache read failed, falling back to store" id requestId (some error)

/-- The cache failed to take the product that was fetched. -/
def repopulationFailedEvent (id : Int64) (requestId : String) (error : CacheError) : Event :=
  productEvent .warn "cache repopulation failed" id requestId (some error)

/-- The cache failed to take the product that was created. -/
def writeFailedEvent (id : Int64) (requestId : String) (error : CacheError) : Event :=
  productEvent .warn "cache write after create failed" id requestId (some error)

/-- The store failed to delete everything after the cache had been cleared. -/
def purgeFailedEvent (requestId : String) (error : StoreError) : Event :=
  { level := .warn, target, message := "store purge failed after cache was cleared"
    fields := [("request_id", .text requestId), ("error", .text error.message)] }

/-- Reads a product from the store and puts it into the cache, after the faults `earlier`. -/
def fetchFromStore (requestId : String) (id : Int64) (earlier : List Fault) :
    Program (Outcome String) := do
  match ← Program.store (.find id) with
  | .error e => return .error ⟨.ofStore e, earlier⟩
  | .ok product =>
    match ← Program.cache (.set product) with
    | .ok () => return .ok ⟨product.encode, earlier⟩
    | .error e =>
      Program.note (repopulationFailedEvent id requestId e)
      return .ok ⟨product.encode, earlier ++ [.ofCache e]⟩

/-- The text of a product, from the cache when it has one. -/
def fetch (requestId : String) (id : Int64) : Program (Outcome String) := do
  match ← Program.cache (.get id) with
  | .ok text =>
    Program.note (hitEvent id requestId)
    return .clean text
  | .error (.notFound _) =>
    Program.note (missEvent id requestId)
    fetchFromStore requestId id []
  | .error e =>
    Program.note (readFailedEvent id requestId e)
    fetchFromStore requestId id [.ofCache e]

/-- All products in order. -/
def list : Program (Outcome (List Product)) := do
  match ← Program.store .list with
  | .ok products => return .clean products
  | .error e => return .error ⟨.ofStore e, []⟩

/-- The products of a window in order. -/
def page (window : Window) : Program (Outcome (List Product)) := do
  match ← Program.store (.page window) with
  | .ok products => return .clean products
  | .error e => return .error ⟨.ofStore e, []⟩

/-- Stores a new product, puts it into the cache, and gives its identifier. -/
def create (requestId : String) (draft : Draft) : Program (Outcome Int64) := do
  match ← Program.store (.insert draft) with
  | .error e => return .error ⟨.ofStore e, []⟩
  | .ok id =>
    match ← Program.cache (.set (draft.withId id)) with
    | .ok () => return .clean id
    | .error e =>
      Program.note (writeFailedEvent id requestId e)
      return .ok ⟨id, [.ofCache e]⟩

/-- Drops the cached text of a product. That there was none is a warning; any other failure ends the
operation that asked for it. -/
def invalidate (id : Int64) : Program (Except Failure (List Fault)) := do
  match ← Program.cache (.delete id) with
  | .ok () => return .ok []
  | .error (.notFound missing) => return .ok [.ofCache (.notFound missing)]
  | .error e => return .error ⟨.ofCache e, []⟩

/-- Drops the cached text of a product, then asks the store for the change itself. -/
def replace (id : Int64) (change : Program (Except StoreError Product)) :
    Program (Outcome Product) := do
  match ← invalidate id with
  | .error failure => return .error failure
  | .ok earlier =>
    match ← change with
    | .ok previous => return .ok ⟨previous, earlier⟩
    | .error e => return .error ⟨.ofStore e, earlier⟩

/-- Replaces the payload of a product and gives the product from before. -/
def update (id : Int64) (draft : Draft) : Program (Outcome Product) :=
  replace id (Program.store (.update id draft))

/-- Removes a product and gives it. -/
def delete (id : Int64) : Program (Outcome Product) :=
  replace id (Program.store (.delete id))

/-- Clears the cache, removes all products, and gives their number. -/
def deleteAll (requestId : String) : Program (Outcome Nat) := do
  match ← Program.cache .clear with
  | .error e => return .error ⟨.ofCache e, []⟩
  | .ok () =>
    match ← Program.store .purge with
    | .ok count => return .clean count
    | .error e =>
      Program.note (purgeFailedEvent requestId e)
      return .error ⟨.ofStore e, []⟩

/-- Checks that the store answers. -/
def ping : Program (Except Failure Unit) := do
  match ← Program.store .ping with
  | .ok () => return .ok ()
  | .error e => return .error ⟨.ofStore e, []⟩

end Catalogue.Service
