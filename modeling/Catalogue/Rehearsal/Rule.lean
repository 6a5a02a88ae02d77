import Catalogue.Backend
import Catalogue.Deadline

/-!
# Rules for backend calls

A rule disturbs the calls of one kind: it lets them wait, and it may put an answer in the place of
what the backend would have done. It may wear off after a number of calls.
-/

namespace Catalogue.Rehearsal

/-- The kinds of calls. -/
inductive Point where
  | find
  | list
  | page
  | insert
  | update
  | delete
  | purge
  | ping
  | cacheGet
  | cacheSet
  | cacheDelete
  | cacheClear
  deriving DecidableEq, Repr

namespace Point

/-- All kinds of calls. -/
def all : List Point :=
  [.find, .list, .page, .insert, .update, .delete, .purge, .ping, .cacheGet, .cacheSet,
   .cacheDelete, .cacheClear]

/-- The name of a kind. -/
def name : Point → String
  | .find => "store.find"
  | .list => "store.list"
  | .page => "store.page"
  | .insert => "store.insert"
  | .update => "store.update"
  | .delete => "store.delete"
  | .purge => "store.purge"
  | .ping => "store.ping"
  | .cacheGet => "cache.get"
  | .cacheSet => "cache.set"
  | .cacheDelete => "cache.delete"
  | .cacheClear => "cache.clear"

/-- The kind of a name. -/
def ofName? (name : String) : Option Point := all.find? fun point => point.name == name

/-- The kind of a call. -/
def ofCall : Call → Point
  | .store (.find _) => .find
  | .store .list => .list
  | .store (.page _) => .page
  | .store (.insert _) => .insert
  | .store (.update _ _) => .update
  | .store (.delete _) => .delete
  | .store .purge => .purge
  | .store .ping => .ping
  | .cache (.get _) => .cacheGet
  | .cache (.set _) => .cacheSet
  | .cache (.delete _) => .cacheDelete
  | .cache .clear => .cacheClear

end Point

/-- The numbers that tell a call from others of its kind. -/
def callNumbers : Call → List Int64
  | .store (.find id) | .store (.update id _) | .store (.delete id) => [id]
  | .store (.page window) => [window.limit, window.offset]
  | .cache (.get id) | .cache (.delete id) => [id]
  | .cache (.set product) => [product.id]
  | _ => []

/-- A call in words. -/
def callText (call : Call) : String :=
  " ".intercalate ((Point.ofCall call).name :: (callNumbers call).map fun n => s!"{n.toInt}")

/-- An answer in the place of what a backend would have done. -/
inductive Instead where
  | internal (message : String)
  | notFound (id : Int64)
  | timeout
  | product (product : Product)
  | text (text : String)
  deriving DecidableEq, Repr

/-- The answer to a call of the store, if it fits the call. -/
def Instead.ofStore? : Instead → (call : StoreCall) → Option (Except StoreError call.Value)
  | .internal message, _ => some (.error (.persistence message))
  | .notFound id, _ => some (.error (.notFound id))
  | .timeout, _ => some (.error .timeout)
  | .product p, .find _ => some (.ok p)
  | .product p, .update _ _ => some (.ok p)
  | .product p, .delete _ => some (.ok p)
  | _, _ => none

/-- The answer to a call of the cache, if it fits the call. -/
def Instead.ofCache? : Instead → (call : CacheCall) → Option (Except CacheError call.Value)
  | .internal message, _ => some (.error (.internal message))
  | .notFound id, _ => some (.error (.notFound id))
  | .text s, .get _ => some (.ok s)
  | _, _ => none

/-- The answer to a call, if it fits the call. -/
def Instead.answer? (instead : Instead) : (call : Call) → Option call.Answer
  | .store call => instead.ofStore? call
  | .cache call => instead.ofCache? call

/-- How calls are disturbed, and how many of them, if not all. -/
structure Rule where
  times : Option Nat := none
  delay : Delay := .finite 0
  instead : Option Instead := none
  deriving DecidableEq, Repr

/-- The rule that is left when a call has started to use it. -/
def Rule.used (rule : Rule) : Option Rule :=
  match rule.times with
  | none => some rule
  | some n => if n ≤ 1 then none else some { rule with times := some (n - 1) }

/-- Rules by the kinds of calls that they are for, at most one for each. -/
abbrev Rules := List (Point × Rule)

namespace Rules

/-- The rule for a kind. -/
def rule? (rules : Rules) (point : Point) : Option Rule := rules.lookup point

/-- Rules with the rule for one kind set or taken away. -/
def set (rules : Rules) (point : Point) (rule : Option Rule) : Rules :=
  (rule.toList.map fun r => (point, r)) ++ rules.filter fun entry => entry.1 != point

end Rules

end Catalogue.Rehearsal
