import Catalogue.Backend

/-!
# A store in memory

The rows stand in the order of their identifiers, each identifier once. New rows get the identifiers
behind the last one that was given away, whether or not that row is still there.
-/

namespace Catalogue

/-- Rows in ascending order of their identifiers, and the identifier that was given away last. -/
structure MemoryStore where
  rows : List Product := []
  lastId : Int64 := 0
  deriving DecidableEq, Repr

namespace MemoryStore

/-- Rows with one of them put in its place. It replaces the row that stood there. -/
def insertRow (row : Product) : List Product → List Product
  | [] => [row]
  | first :: rest =>
    if row.id < first.id then row :: first :: rest
    else if row.id = first.id then row :: rest
    else first :: insertRow row rest

/-- The store with some rows. The last identifier is the greatest one unless another is given. -/
def ofRows (rows : List Product) (lastId : Option Int64) : MemoryStore :=
  let sorted := rows.foldl (fun sorted row => insertRow row sorted) []
  ⟨sorted, lastId.getD ((sorted.getLast?.map Product.id).getD 0)⟩

/-- The row under an identifier. -/
def row? (store : MemoryStore) (id : Int64) : Option Product :=
  store.rows.find? fun row => row.id == id

/-- The row under an identifier, or that it is missing. -/
def find (store : MemoryStore) (id : Int64) : Except StoreError Product :=
  match store.row? id with
  | some row => .ok row
  | none => .error (.notFound id)

/-- Puts a row into the store. -/
def put (store : MemoryStore) (row : Product) : MemoryStore :=
  { store with rows := insertRow row store.rows }

/-- Takes a row out of the store. -/
def remove (store : MemoryStore) (id : Int64) : MemoryStore :=
  { store with rows := store.rows.filter fun row => row.id != id }

/-- Stores a draft under a new identifier. -/
def insert (store : MemoryStore) (draft : Draft) : Int64 × MemoryStore :=
  let id := store.lastId + 1
  (id, { store.put (draft.withId id) with lastId := id })

/-- Answers a call. -/
def answer (store : MemoryStore) : (call : StoreCall) → Except StoreError call.Value × MemoryStore
  | .find id => (store.find id, store)
  | .list => (.ok store.rows, store)
  | .page window => (.ok (window.slice store.rows), store)
  | .insert draft =>
    let (id, store) := store.insert draft
    (.ok id, store)
  | .update id draft =>
    match store.row? id with
    | some row => (.ok row, store.put (draft.withId id))
    | none => (.error (.notFound id), store)
  | .delete id =>
    match store.row? id with
    | some row => (.ok row, store.remove id)
    | none => (.error (.notFound id), store)
  | .purge => (.ok store.rows.length, { store with rows := [] })
  | .ping => (.ok (), store)

end MemoryStore

end Catalogue
