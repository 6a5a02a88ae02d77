import Catalogue.Proofs.Inclusion
import Mathlib.Algebra.GroupWithZero.Nat

/-!
# The counters of a cache

The counters of a cache account for all that was asked of it. Every look-up is a hit or a miss. And
every product that was set while it was not there is there still, or was deleted, or was swept away
with all others, or was evicted, so the evictions are what the rest leaves
(`Cache.counters_account`).

Both laws hold of any cache without duplicates, whatever it held and counted before, and that is how
they are carried from one use (`Cache.hits_perform`, `Cache.evictions_perform`) to a run of uses
(`Cache.hits_foldl`, `Cache.evictions_foldl`).
-/

namespace Catalogue.Cache

/-- A product is looked up. -/
def Use.isLookup : Use → Bool
  | .call (.get _) => true
  | _ => false

/-- The uses of a cache one after another, each with the cache that it finds. -/
def encounters (cache : Cache) : List Use → List (Cache × Use)
  | [] => []
  | use :: uses => (cache, use) :: (cache.perform use).encounters uses

/-- A product is looked up and found. -/
def finds : Cache × Use → Bool
  | (cache, .call (.get id)) => (cache.get id).1.isOk
  | _ => false

/-- A product is set that is not there. -/
def admits : Cache × Use → Bool
  | (cache, .call (.set product)) => !cache.contains product.id
  | _ => false

/-- A product is deleted that is there. -/
def removes : Cache × Use → Bool
  | (cache, .call (.delete id)) => (cache.delete id).1.isOk
  | _ => false

/-- How many entries are dropped because all are. -/
def swept : Cache × Use → Nat
  | (cache, .call .clear) => cache.size
  | _ => 0

variable {cache : Cache} {use : Use} {product : Product}

/-! ### What calls do to the entries -/

theorem size_eq (cache : Cache) : cache.size = cache.keys.length := (List.length_map ..).symm

/-- The others are all but one, or all. -/
theorem length_others (h : cache.keys.Nodup) (id : Int64) :
    (cache.others id).length + (if cache.contains id then 1 else 0) = cache.size := by
  have hlength : (cache.others id).length = (cache.keys.filter (· != id)).length := by
    rw [← keys_others, List.length_map]
  rw [hlength, size_eq]
  split
  · rename_i hc
    exact length_filter_of_mem h (contains_iff.1 hc)
  · rename_i hc
    rw [filter_of_not_mem fun hid => hc (contains_iff.2 hid), Nat.add_zero]

/-- Where nothing is handed back, nothing is counted. -/
theorem evictions_set_of_push_none (h : (cache.push product.id product.encode).1 = none) :
    (cache.set product).2.evictions = cache.evictions := by
  have hpush := congrArg evictions (cache.frame_push product.id product.encode)
  unfold set
  dsimp only
  rw [h]
  exact hpush

/-- What is handed back is counted just if it is of another product. -/
theorem evictions_set_of_push {entry : Int64 × String}
    (h : (cache.push product.id product.encode).1 = some entry) :
    (cache.set product).2.evictions =
      cache.evictions + if entry.1 = product.id then 0 else 1 := by
  have hpush := congrArg evictions (cache.frame_push product.id product.encode)
  unfold set
  dsimp only
  rw [h]
  dsimp only
  by_cases hown : entry.1 = product.id
  · rw [if_neg (not_not_intro hown), if_pos hown]
    exact hpush
  · rw [if_pos hown, if_neg hown]
    exact congrArg (· + 1) hpush

/-- A product that is set takes nobody's place, and nothing is counted, or it is new and takes the
place of the last entry, and that is counted. -/
theorem set_cases (cache : Cache) (product : Product) :
    ((cache.set product).2.entries = (product.id, product.encode) :: cache.others product.id ∧
      (cache.set product).2.evictions = cache.evictions) ∨
    (product.id ∉ cache.keys ∧ cache.entries ≠ [] ∧
      (cache.set product).2.entries = (product.id, product.encode) :: cache.entries.dropLast ∧
      (cache.set product).2.evictions = cache.evictions + 1) := by
  have hentries := cache.entries_set product
  by_cases hkey : product.id ∈ cache.keys
  · obtain ⟨old, hpush⟩ := push_of_mem product.encode hkey
    have hcount := evictions_set_of_push (congrArg Prod.fst hpush)
    rw [hpush] at hentries
    rw [if_pos rfl] at hcount
    exact Or.inl ⟨hentries, hcount⟩
  by_cases hroom : cache.size < cache.capacity
  · have hpush := push_of_room product.encode hkey hroom
    rw [hpush] at hentries
    exact Or.inl ⟨hentries, evictions_set_of_push_none (congrArg Prod.fst hpush)⟩
  have hpush := push_of_full product.encode hkey (Nat.not_lt.1 hroom)
  rw [hpush] at hentries
  cases hlast : cache.entries.getLast? with
  | none =>
    have hnone := (congrArg Prod.fst hpush).trans hlast
    refine Or.inl ⟨?_, evictions_set_of_push_none hnone⟩
    rw [hentries, others_of_not_mem hkey, List.getLast?_eq_none_iff.1 hlast, List.dropLast_nil]
  | some victim =>
    have hvictim : victim ∈ cache.entries := List.mem_of_getLast? hlast
    have hcount := evictions_set_of_push ((congrArg Prod.fst hpush).trans hlast)
    rw [if_neg (absent_iff.2 hkey victim hvictim)] at hcount
    exact Or.inr ⟨hkey, List.ne_nil_of_mem hvictim, hentries, hcount⟩

theorem isOk_delete (cache : Cache) (id : Int64) :
    (cache.delete id).1.isOk = cache.contains id := by
  unfold delete
  split
  · rename_i h
    exact h.symm
  · rename_i h
    exact (Bool.not_eq_true _ ▸ h).symm

/-- Nothing is there twice behind a use, if nothing was before. -/
theorem nodup_perform (h : cache.keys.Nodup) (use : Use) : (cache.perform use).keys.Nodup := by
  have hothers : ∀ id text, (((id, text) :: cache.others id).map Prod.fst).Nodup := by
    intro id text
    rw [List.map_cons, keys_others]
    exact List.nodup_cons.2 ⟨by simp, h.filter _⟩
  cases use with
  | contains id => exact h
  | size => exact h
  | call call =>
    cases call with
    | clear => exact List.nodup_nil
    | delete id =>
      show (cache.delete id).2.keys.Nodup
      rw [keys_delete]
      exact h.filter _
    | get id =>
      show (cache.get id).2.keys.Nodup
      unfold get
      split
      · exact hothers id _
      · exact h
    | set product =>
      show ((cache.set product).2.entries.map Prod.fst).Nodup
      rcases cache.set_cases product with ⟨hentries, -⟩ | ⟨hnew, -, hentries, -⟩
      · rw [hentries]
        exact hothers product.id _
      · rw [hentries, List.map_cons, List.map_dropLast]
        exact List.nodup_cons.2 ⟨fun hid => hnew (List.dropLast_subset _ hid),
          h.sublist (List.dropLast_sublist _)⟩

/-! ### One use -/

/-- A use counts as a hit if it is a look-up that finds its product, and as a hit or a miss if it is
a look-up at all. -/
theorem hits_perform (cache : Cache) (use : Use) :
    (cache.perform use).hits = cache.hits + (if finds (cache, use) then 1 else 0) ∧
      (cache.perform use).hits + (cache.perform use).misses =
        cache.hits + cache.misses + (if use.isLookup then 1 else 0) := by
  cases use with
  | contains id => exact ⟨rfl, rfl⟩
  | size => exact ⟨rfl, rfl⟩
  | call call =>
    cases call with
    | clear => exact ⟨rfl, rfl⟩
    | delete id =>
      show (cache.delete id).2.hits = cache.hits ∧
        (cache.delete id).2.hits + (cache.delete id).2.misses = cache.hits + cache.misses
      unfold delete
      split <;> exact ⟨rfl, rfl⟩
    | set product =>
      show (cache.set product).2.hits = cache.hits ∧
        (cache.set product).2.hits + (cache.set product).2.misses = cache.hits + cache.misses
      obtain ⟨-, hhits, hmisses⟩ := cache.frame_set product
      rw [hhits, hmisses]
      exact ⟨rfl, rfl⟩
    | get id =>
      show (cache.get id).2.hits = cache.hits + (if (cache.get id).1.isOk then 1 else 0) ∧
        (cache.get id).2.hits + (cache.get id).2.misses = cache.hits + cache.misses + 1
      unfold get
      split
      · exact ⟨rfl, Nat.add_right_comm ..⟩
      · exact ⟨rfl, rfl⟩

/-- **What comes in with a use goes out or stays**: what is evicted, deleted and swept away, and
what is there behind the use, is what was there before it and what it admits. -/
theorem evictions_perform (h : cache.keys.Nodup) (use : Use) :
    (cache.perform use).evictions + (cache.perform use).size +
        (if removes (cache, use) then 1 else 0) + swept (cache, use) =
      cache.evictions + cache.size + (if admits (cache, use) then 1 else 0) := by
  cases use with
  | contains id => rfl
  | size => rfl
  | call call =>
    cases call with
    | clear =>
      show cache.evictions + 0 + 0 + cache.size = _
      rfl
    | get id =>
      show (cache.get id).2.evictions + (cache.get id).2.size = cache.evictions + cache.size
      have hothers := length_others h id
      unfold get
      split
      · rename_i text hp
        have hc : cache.contains id = true := by rw [contains, hp]; rfl
        rw [if_pos hc] at hothers
        show cache.evictions + (cache.others id).length.succ = _
        omega
      · rfl
    | delete id =>
      show (cache.delete id).2.evictions + (cache.delete id).2.size +
        (if (cache.delete id).1.isOk then 1 else 0) = cache.evictions + cache.size
      have hothers := length_others h id
      rw [isOk_delete]
      unfold delete
      split
      · rename_i hc
        rw [if_pos hc] at hothers
        show cache.evictions + (cache.others id).length + 1 = _
        omega
      · rfl
    | set product =>
      show (cache.set product).2.evictions + (cache.set product).2.entries.length =
        cache.evictions + cache.size + (if !cache.contains product.id then 1 else 0)
      rcases cache.set_cases product with ⟨hentries, hcount⟩ | ⟨hnew, hne, hentries, hcount⟩
      · have hothers := length_others h product.id
        rw [hentries, hcount, List.length_cons]
        cases hc : cache.contains product.id with
        | true =>
          rw [hc] at hothers
          simp only [if_true] at hothers
          simp only [Bool.not_true, Bool.false_eq_true, if_false]
          omega
        | false =>
          rw [hc] at hothers
          simp only [Bool.false_eq_true, if_false] at hothers
          simp only [Bool.not_false, if_true]
          omega
      · -- the new entry is one more, the last one is one less, and that one is counted
        have hc : cache.contains product.id = false :=
          Bool.eq_false_iff.2 fun hc => hnew (contains_iff.1 hc)
        have hpos := List.length_pos_of_ne_nil hne
        rw [hentries, hcount, hc, List.length_cons, List.length_dropLast]
        simp only [Bool.not_false, if_true]
        unfold size
        omega

/-- Nothing is counted where nothing new is set. -/
theorem evictions_perform_of_known
    (h : ∀ product, use = .call (.set product) → product.id ∈ cache.keys) :
    (cache.perform use).evictions = cache.evictions := by
  cases use with
  | contains id => rfl
  | size => rfl
  | call call =>
    cases call with
    | clear => rfl
    | delete id =>
      show (cache.delete id).2.evictions = cache.evictions
      unfold delete
      split <;> rfl
    | get id =>
      show (cache.get id).2.evictions = cache.evictions
      unfold get
      split <;> rfl
    | set product =>
      rcases cache.set_cases product with ⟨-, hcount⟩ | ⟨hnew, -⟩
      · exact hcount
      · exact absurd (h product rfl) hnew

/-! ### A run of uses -/

theorem hits_foldl (cache : Cache) (uses : List Use) :
    (uses.foldl perform cache).hits = cache.hits + (cache.encounters uses).countP finds ∧
      (uses.foldl perform cache).hits + (uses.foldl perform cache).misses =
        cache.hits + cache.misses + uses.countP Use.isLookup := by
  induction uses generalizing cache with
  | nil => exact ⟨rfl, rfl⟩
  | cons use uses ih =>
    obtain ⟨hhits, hlookups⟩ := cache.hits_perform use
    obtain ⟨hhits', hlookups'⟩ := ih (cache.perform use)
    rw [List.foldl_cons, encounters, List.countP_cons, List.countP_cons]
    constructor
    · omega
    · omega

theorem evictions_foldl (h : cache.keys.Nodup) (uses : List Use) :
    (uses.foldl perform cache).evictions + (uses.foldl perform cache).size +
        (cache.encounters uses).countP removes + ((cache.encounters uses).map swept).sum =
      cache.evictions + cache.size + (cache.encounters uses).countP admits := by
  induction uses generalizing cache with
  | nil => rfl
  | cons use uses ih =>
    have hone := evictions_perform h use
    have hrest := ih (nodup_perform h use)
    rw [List.foldl_cons, encounters, List.countP_cons, List.countP_cons, List.map_cons,
      List.sum_cons]
    omega

/-- **The counters account for every entry.** Behind any uses of a new cache:
* hits and misses together are the look-ups, and hits are those that found their product;
* evictions are the products that were set while they were not there, less those that were deleted
  while they were, less all that were swept away, less those that are there still;
* nothing but setting a product that is not there counts as an eviction;
* setting a product hands back an entry that it takes the place of, be it of the same product or of
  another, and that counts as an eviction just if it is of another. -/
theorem counters_account (capacity : Nat) (uses : List Use) :
    let cache := after capacity uses
    let past := (empty capacity).encounters uses
    (cache.hits + cache.misses = uses.countP Use.isLookup ∧ cache.hits = past.countP finds) ∧
    (cache.evictions : Int) =
      past.countP admits - past.countP removes - (past.map swept).sum - cache.size ∧
    (∀ use, (∀ product, use = .call (.set product) → product.id ∈ cache.keys) →
      (after capacity (uses ++ [use])).evictions = cache.evictions) ∧
    ∀ product, let displaced := (cache.push product.id product.encode).1
      (product.id ∈ cache.keys → ∃ old, displaced = some (product.id, old)) ∧
      ∀ entry, displaced = some entry → entry ∈ cache.entries ∧
        (after capacity (uses ++ [.call (.set product)])).evictions =
          cache.evictions + if entry.1 = product.id then 0 else 1 := by
  intro cache past
  obtain ⟨hhits, hlookups⟩ := (empty capacity).hits_foldl uses
  have hentries : (uses.foldl perform (empty capacity)).evictions + cache.size +
      past.countP removes + (past.map swept).sum = past.countP admits := by
    have hnew : (empty capacity).keys.Nodup := List.nodup_nil
    have hfold := evictions_foldl hnew uses
    rwa [show (empty capacity).evictions + (empty capacity).size = 0 from rfl,
      Nat.zero_add] at hfold
  refine ⟨⟨?_, ?_⟩, ?_, fun use hknown => ?_, fun product => ⟨fun hkey => ?_, fun entry h => ?_⟩⟩
  · exact hlookups.trans (Nat.zero_add _)
  · exact hhits.trans (Nat.zero_add _)
  · show ((uses.foldl perform (empty capacity)).evictions : Int) = _
    omega
  · rw [after_concat]
    exact evictions_perform_of_known hknown
  · obtain ⟨old, hpush⟩ := push_of_mem product.encode hkey
    exact ⟨old, congrArg Prod.fst hpush⟩
  · rw [after_concat]
    exact ⟨mem_of_push h, evictions_set_of_push h⟩

/-- In a cache for one product: the second product evicts the first, setting the second again
evicts nothing, and clearing does not either. -/
example :
    let first : Use := .call (.set ⟨1, "a", "x"⟩)
    let second : Use := .call (.set ⟨2, "b", "y"⟩)
    let uses := [first, second, second, .call (.get 1), .call (.get 2), .call .clear]
    (after 1 uses).evictions = 1 := by
  decide

end Catalogue.Cache
