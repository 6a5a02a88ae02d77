import Catalogue.Event
import Catalogue.Fault
import Catalogue.Product.Encode

/-!
# The product cache

The cache keeps the texts of the products used last. Its entries stand in the order of their last
use, the latest first; looking a product up and setting it are uses, asking whether it is there is
not. A full cache that takes a new product drops the last entry. Three counters tell how often a
look-up found its product, how often it did not, and how many entries were dropped for want of room.
-/

namespace Catalogue

/-- The name under which a product is cached. -/
def cacheKey (id : Int64) : String := s!"product:{id.toInt}"

/-- The entries in order of use, and the counters. -/
structure Cache where
  capacity : Nat
  entries : List (Int64 × String) := []
  hits : Nat := 0
  misses : Nat := 0
  evictions : Nat := 0
  deriving DecidableEq, Repr

namespace Cache

/-- The target of the cache's events. -/
def target : String := "products::cache"

/-- An empty cache. -/
def empty (capacity : Nat) : Cache := { capacity }

/-- The number of entries. -/
def size (cache : Cache) : Nat := cache.entries.length

/-- The text cached for a product, without counting as a use. -/
def peek? (cache : Cache) (id : Int64) : Option String := cache.entries.lookup id

/-- Whether a product is cached. -/
def contains (cache : Cache) (id : Int64) : Bool := (cache.peek? id).isSome

/-- The entries without that of one product. -/
def others (cache : Cache) (id : Int64) : List (Int64 × String) :=
  cache.entries.filter fun entry => entry.1 != id

/-- Looks a product up, which makes it the one used last. -/
def get (cache : Cache) (id : Int64) : Except CacheError String × Cache :=
  match cache.peek? id with
  | some text =>
    (.ok text, { cache with entries := (id, text) :: cache.others id, hits := cache.hits + 1 })
  | none => (.error (.notFound id), { cache with misses := cache.misses + 1 })

/-- Puts a text in front. Gives the entry whose place it takes: the one of the same product if there
is one, or else the last one if the cache is full. -/
def push (cache : Cache) (id : Int64) (text : String) : Option (Int64 × String) × Cache :=
  match cache.peek? id with
  | some old => (some (id, old), { cache with entries := (id, text) :: cache.others id })
  | none =>
    if cache.size < cache.capacity then
      (none, { cache with entries := (id, text) :: cache.entries })
    else
      (cache.entries.getLast?, { cache with entries := (id, text) :: cache.entries.dropLast })

/-- Stores the text of a product as the one used last. Gives the product that was dropped to make
room. An entry of the same product was not dropped for want of room, so it is neither given nor
counted. -/
def set (cache : Cache) (product : Product) : Option Int64 × Cache :=
  let (displaced, pushed) := cache.push product.id product.encode
  match displaced with
  | some (id, _) =>
    if id ≠ product.id then (some id, { pushed with evictions := pushed.evictions + 1 })
    else (none, pushed)
  | none => (none, pushed)

/-- Drops the text of a product. -/
def delete (cache : Cache) (id : Int64) : Except CacheError Unit × Cache :=
  if cache.contains id then (.ok (), { cache with entries := cache.others id })
  else (.error (.notFound id), cache)

/-- Drops all texts. -/
def clear (cache : Cache) : Cache := { cache with entries := [] }

/-- An entry was dropped for want of room. -/
def evictionEvent (id : Int64) : Event :=
  { level := .debug, target, message := "evicted least recently used product"
    fields := [("key", .text (cacheKey id))] }

end Cache

/-- What a counter is called and what it counts. -/
structure Metric where
  name : String
  unit : String
  description : String
  count : Cache → Nat

/-- The counters of the cache. -/
def Metric.all : List Metric :=
  [⟨"products_cache_hit_total", "count", "Product lookups answered from the cache.", Cache.hits⟩,
   ⟨"products_cache_miss_total", "count", "Product lookups that found no cache entry.",
     Cache.misses⟩,
   ⟨"products_cache_evict_total", "count", "Cached products dropped to stay within capacity.",
     Cache.evictions⟩]

end Catalogue
