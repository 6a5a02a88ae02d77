import Catalogue.Proofs.Residents
import Mathlib.Data.List.Basic
import Mathlib.Data.List.Induction
import Mathlib.Order.Bounds.Basic
import Mathlib.Tactic.Common

/-!
# The history of a cache

Everything that is done with a new cache is a *use* of it, and some uses touch a product: it is
set, or it is looked up and found. The history tells what the cache holds. An entry is the text of
the product that was set last under its identifier, and an entry stands in front of another if it
was touched later (`Cache.Recorded`).

One use either touches nothing, and then entries at most leave, or it touches one product, whose
entry then stands in front of all others (`Cache.perform_cases`). That is all that is needed to see
that the record is kept (`Cache.Recorded.perform`).
-/

namespace Catalogue.Cache

/-- What can be done with a cache. -/
inductive Use where
  | call (call : CacheCall)
  | contains (id : Int64)
  | size
  deriving DecidableEq, Repr

/-- The cache behind a use. Asking whether a product is there, or how many are, leaves it as it is.
-/
def perform (cache : Cache) : Use → Cache
  | .call call => (cache.answer call).2
  | .contains _ | .size => cache

/-- A new cache behind some uses. -/
def after (capacity : Nat) (uses : List Use) : Cache := uses.foldl perform (empty capacity)

/-- The identifiers of the entries in order. -/
def keys (cache : Cache) : List Int64 := cache.entries.map Prod.fst

/-- A use gives the cache the text of a product. -/
def Sets (id : Int64) (use : Use) : Prop := ∃ product, use = .call (.set product) ∧ product.id = id

/-- A use sets a product, or looks it up and finds it. -/
def Touches (cache : Cache) (id : Int64) (use : Use) : Prop :=
  Sets id use ∨ use = .call (.get id) ∧ ∃ text, (cache.get id).1 = .ok text

/-- The `i`th use set a product of an identifier. -/
def SetAt (uses : List Use) (id : Int64) (i : Nat) : Prop :=
  ∃ use, uses[i]? = some use ∧ Sets id use

/-- The `i`th use of a new cache touched a product. -/
def TouchedAt (capacity : Nat) (uses : List Use) (id : Int64) (i : Nat) : Prop :=
  ∃ use, uses[i]? = some use ∧ (after capacity (uses.take i)).Touches id use

/-- The product that was set last under an identifier. -/
def LastSet (uses : List Use) (id : Int64) (product : Product) : Prop :=
  ∃ i, IsGreatest {i | SetAt uses id i} i ∧ uses[i]? = some (.call (.set product))

/-- A product was touched for the last time by the `i`th use. -/
def LastTouchedAt (capacity : Nat) (uses : List Use) (id : Int64) (i : Nat) : Prop :=
  IsGreatest {i | TouchedAt capacity uses id i} i

variable {cache : Cache} {capacity : Nat} {uses : List Use} {use : Use} {id k : Int64}
  {text : String} {product : Product}

/-! ### Look-ups -/

theorem mem_keys : id ∈ cache.keys ↔ ∃ text, (id, text) ∈ cache.entries := by
  unfold keys
  rw [List.mem_map]
  constructor
  · rintro ⟨entry, hmem, rfl⟩
    exact ⟨entry.2, hmem⟩
  · rintro ⟨text, hmem⟩
    exact ⟨_, hmem, rfl⟩

theorem contains_iff : cache.contains id = true ↔ id ∈ cache.keys := by
  constructor
  · intro h
    obtain ⟨text, hp⟩ := Option.isSome_iff_exists.1 h
    exact mem_keys.2 ⟨text, mem_of_peek? hp⟩
  · intro h
    by_contra hc
    obtain ⟨text, hmem⟩ := mem_keys.1 h
    exact contains_eq_false_iff.1 (Bool.not_eq_true _ ▸ hc) _ hmem rfl

theorem exists_get_eq_ok_iff : (∃ text, (cache.get id).1 = .ok text) ↔ id ∈ cache.keys := by
  rw [← contains_iff]
  unfold contains
  rw [Option.isSome_iff_exists]
  exact exists_congr fun text => get_eq_ok_iff

theorem length_others_lt (h : id ∈ cache.keys) : (cache.others id).length < cache.size := by
  obtain ⟨text, hmem⟩ := mem_keys.1 h
  refine List.length_filter_lt_length_iff_exists.2 ⟨_, hmem, ?_⟩
  simp

/-! ### One use -/

theorem capacity_perform (cache : Cache) (use : Use) :
    (cache.perform use).capacity = cache.capacity := by
  cases use with
  | contains id => rfl
  | size => rfl
  | call call =>
    cases call with
    | get id =>
      show (cache.get id).2.capacity = _
      unfold get
      split <;> rfl
    | set product =>
      exact (cache.frame_set product).1
    | delete id =>
      show (cache.delete id).2.capacity = _
      unfold delete
      split <;> rfl
    | clear => rfl

theorem capacity_after (capacity : Nat) (uses : List Use) :
    (after capacity uses).capacity = capacity := by
  induction uses using List.reverseRecOn with
  | nil => rfl
  | append_singleton uses use ih =>
    unfold after at ih ⊢
    rw [List.foldl_concat, capacity_perform, ih]

theorem after_concat (capacity : Nat) (uses : List Use) (use : Use) :
    after capacity (uses ++ [use]) = (after capacity uses).perform use := List.foldl_concat ..

theorem absent_iff : cache.Absent id ↔ id ∉ cache.keys := by
  rw [← contains_eq_false_iff, ← contains_iff, Bool.not_eq_true]

theorem others_of_not_mem (h : id ∉ cache.keys) : cache.others id = cache.entries :=
  List.filter_eq_self.2 fun entry hentry => bne_iff_ne.2 (absent_iff.2 h entry hentry)

/-- A product that is there takes the place of its own entry. -/
theorem push_of_mem (text : String) (h : id ∈ cache.keys) :
    ∃ old, cache.push id text =
      (some (id, old), { cache with entries := (id, text) :: cache.others id }) := by
  obtain ⟨old, hold⟩ := Option.isSome_iff_exists.1 (contains_iff.2 h)
  refine ⟨old, ?_⟩
  unfold push
  rw [hold]

/-- A product for which there is room takes the place of nothing. -/
theorem push_of_room (text : String) (h : id ∉ cache.keys) (hroom : cache.size < cache.capacity) :
    cache.push id text = (none, { cache with entries := (id, text) :: cache.others id }) := by
  unfold push
  rw [peek?_eq_none_iff.2 (absent_iff.2 h), others_of_not_mem h]
  exact if_pos hroom

/-- A product for which there is no room takes the place of the last entry. -/
theorem push_of_full (text : String) (h : id ∉ cache.keys) (hfull : cache.capacity ≤ cache.size) :
    cache.push id text = (cache.entries.getLast?,
      { cache with entries := (id, text) :: cache.entries.dropLast }) := by
  unfold push
  rw [peek?_eq_none_iff.2 (absent_iff.2 h)]
  exact if_neg (Nat.not_lt.2 hfull)

/-- A full cache that is given a product it does not have drops its last entry. -/
theorem entries_set_of_full (hcapacity : 1 ≤ cache.capacity) (hfull : cache.capacity ≤ cache.size)
    (h : product.id ∉ cache.keys) :
    ∃ victim, cache.entries = cache.entries.dropLast ++ [victim] ∧
      (cache.set product).2.entries = (product.id, product.encode) :: cache.entries.dropLast := by
  have hne : cache.entries ≠ [] := by
    intro hnil
    unfold size at hfull
    rw [hnil, List.length_nil] at hfull
    omega
  refine ⟨cache.entries.getLast hne, (List.dropLast_append_getLast hne).symm, ?_⟩
  rw [entries_set, push_of_full product.encode h hfull]

/-- A product that is there, or for which there is room, takes nobody's place. -/
theorem entries_set_of_room (h : product.id ∈ cache.keys ∨ cache.size < cache.capacity) :
    (cache.set product).2.entries =
      (product.id, product.encode) :: cache.others product.id := by
  rw [entries_set]
  by_cases hkey : product.id ∈ cache.keys
  · obtain ⟨old, hpush⟩ := push_of_mem product.encode hkey
    rw [hpush]
  · rw [push_of_room product.encode hkey (h.resolve_left hkey)]

/-- What a use that touches a product does: its entry is put in front, some others stay. -/
structure PutsInFront (cache : Cache) (use : Use) (id : Int64) (text : String)
    (kept : List (Int64 × String)) : Prop where
  touches : cache.Touches id use
  entries : (cache.perform use).entries = (id, text) :: kept
  sublist : kept.Sublist cache.entries
  others : ∀ entry ∈ kept, entry.1 ≠ id
  size_le : cache.size ≤ cache.capacity → kept.length < cache.capacity
  /-- The text is that of the product that is set, or it was there. -/
  source : (∃ product, use = .call (.set product) ∧ product.id = id ∧ text = product.encode) ∨
    ¬ Sets id use ∧ (id, text) ∈ cache.entries

theorem others_sublist (cache : Cache) (id : Int64) :
    (cache.others id).Sublist cache.entries := List.filter_sublist

theorem not_touches (hset : ∀ product, use ≠ .call (.set product))
    (hget : ∀ id, use ≠ .call (.get id)) (id : Int64) : ¬ cache.Touches id use := by
  rintro (⟨product, huse, -⟩ | ⟨huse, -⟩)
  · exact hset product huse
  · exact hget id huse

/-- **One use of a cache**: either nothing is touched, and entries at most leave, or one product is
touched, and its entry is put in front. -/
theorem perform_cases (hcapacity : 1 ≤ cache.capacity) (use : Use) :
    ((∀ id, ¬ cache.Touches id use) ∧ (cache.perform use).entries.Sublist cache.entries) ∨
      ∃ id text kept, cache.PutsInFront use id text kept := by
  cases use with
  | contains id => exact Or.inl ⟨not_touches nofun nofun, List.Sublist.refl _⟩
  | size => exact Or.inl ⟨not_touches nofun nofun, List.Sublist.refl _⟩
  | call call =>
    cases call with
    | clear => exact Or.inl ⟨not_touches nofun nofun, List.nil_sublist _⟩
    | delete id =>
      refine Or.inl ⟨not_touches nofun nofun, ?_⟩
      show (cache.delete id).2.entries.Sublist cache.entries
      unfold delete
      split
      · exact others_sublist cache id
      · exact List.Sublist.refl _
    | get id =>
      cases hp : cache.peek? id with
      | none =>
        refine Or.inl ⟨?_, ?_⟩
        · rintro k (⟨_, h, -⟩ | ⟨h, text, htext⟩)
          · cases h
          · cases h
            rw [get_eq_ok_iff, hp] at htext
            cases htext
        · show (cache.get id).2.entries.Sublist cache.entries
          unfold get
          rw [hp]
      | some text =>
        refine Or.inr ⟨id, text, cache.others id, ?_⟩
        have hkey : id ∈ cache.keys := mem_keys.2 ⟨text, mem_of_peek? hp⟩
        refine ⟨Or.inr ⟨rfl, text, get_eq_ok_iff.2 hp⟩, ?_, others_sublist cache id,
          fun entry h => (mem_others.1 h).2, ?_, Or.inr ⟨?_, mem_of_peek? hp⟩⟩
        · show (cache.get id).2.entries = _
          unfold get
          rw [hp]
        · have := length_others_lt hkey
          omega
        · rintro ⟨_, h, -⟩
          cases h
    | set product =>
      have htouches : cache.Touches product.id (.call (.set product)) := Or.inl ⟨product, rfl, rfl⟩
      by_cases hroom : product.id ∈ cache.keys ∨ cache.size < cache.capacity
      · refine Or.inr ⟨product.id, product.encode, cache.others product.id, htouches,
          entries_set_of_room hroom, others_sublist cache product.id,
          fun entry h => (mem_others.1 h).2, ?_, Or.inl ⟨product, rfl, rfl, rfl⟩⟩
        intro hsize
        rcases hroom with hkey | hless
        · have := length_others_lt hkey
          omega
        · have := (others_sublist cache product.id).length_le
          unfold size at hless
          omega
      · obtain ⟨hkey, hfull⟩ := not_or.1 hroom
        obtain ⟨victim, -, hentries⟩ := entries_set_of_full hcapacity (by omega) hkey
        refine Or.inr ⟨product.id, product.encode, cache.entries.dropLast, htouches, hentries,
          List.dropLast_sublist _, ?_, ?_, Or.inl ⟨product, rfl, rfl, rfl⟩⟩
        · intro entry hentry hid
          exact hkey (hid ▸ mem_keys.2 ⟨entry.2, List.dropLast_subset _ hentry⟩)
        · intro hsize
          unfold size at hfull hsize
          rw [List.length_dropLast]
          omega

/-- A use touches one product at most. -/
theorem Touches.eq (h : cache.Touches id use) (hk : cache.Touches k use) : id = k := by
  rcases h with ⟨product, rfl, rfl⟩ | ⟨rfl, -⟩
  · rcases hk with ⟨other, hother, rfl⟩ | ⟨hother, -⟩
    · cases hother
      rfl
    · cases hother
  · rcases hk with ⟨other, hother, -⟩ | ⟨hother, -⟩
    · cases hother
    · cases hother
      rfl

/-! ### The last time -/

/-- What happened last, once something happens at the time `n` or not. -/
theorem isGreatest_concat {P : Nat → Prop} {n : Nat} (hP : ∀ i, P i → i < n) (Q : Prop) :
    (Q → IsGreatest {i | P i ∨ i = n ∧ Q} n) ∧
      (¬ Q → ∀ i, IsGreatest {i | P i ∨ i = n ∧ Q} i ↔ IsGreatest {i | P i} i) := by
  constructor
  · intro hQ
    refine ⟨Or.inr ⟨rfl, hQ⟩, ?_⟩
    rintro i (hi | ⟨rfl, -⟩)
    · exact Nat.le_of_lt (hP i hi)
    · exact Nat.le_refl _
  · intro hQ i
    simp [hQ]

theorem getElem?_concat_eq_some_iff (uses : List Use) (use other : Use) (i : Nat) :
    (uses ++ [use])[i]? = some other ↔
      uses[i]? = some other ∨ i = uses.length ∧ use = other := by
  rw [List.getElem?_append]
  split_ifs with h
  · have : i ≠ uses.length := by omega
    simp [this]
  · have hnone : uses[i]? = none := List.getElem?_eq_none (by omega)
    rw [hnone, List.getElem?_singleton]
    split_ifs with hi
    · have : i = uses.length := by omega
      simp [this]
    · have : i ≠ uses.length := by omega
      simp [this]

theorem lt_length_of_getElem? {i : Nat} (h : uses[i]? = some use) : i < uses.length :=
  (List.getElem?_eq_some_iff.1 h).1

theorem setAt_concat (uses : List Use) (use : Use) (id : Int64) :
    {i | SetAt (uses ++ [use]) id i} = {i | SetAt uses id i ∨ i = uses.length ∧ Sets id use} := by
  ext i
  simp only [SetAt, Set.mem_ofPred_eq, getElem?_concat_eq_some_iff]
  constructor
  · rintro ⟨other, hother | ⟨rfl, rfl⟩, hsets⟩
    · exact Or.inl ⟨other, hother, hsets⟩
    · exact Or.inr ⟨rfl, hsets⟩
  · rintro (⟨other, hother, hsets⟩ | ⟨rfl, hsets⟩)
    · exact ⟨other, Or.inl hother, hsets⟩
    · exact ⟨use, Or.inr ⟨rfl, rfl⟩, hsets⟩

theorem touchedAt_concat (capacity : Nat) (uses : List Use) (use : Use) (id : Int64) :
    {i | TouchedAt capacity (uses ++ [use]) id i} =
      {i | TouchedAt capacity uses id i ∨
        i = uses.length ∧ (after capacity uses).Touches id use} := by
  ext i
  simp only [TouchedAt, Set.mem_ofPred_eq, getElem?_concat_eq_some_iff]
  constructor
  · rintro ⟨other, hother | ⟨rfl, rfl⟩, htouches⟩
    · rw [List.take_append_of_le_length (Nat.le_of_lt (lt_length_of_getElem? hother))] at htouches
      exact Or.inl ⟨other, hother, htouches⟩
    · rw [List.take_left] at htouches
      exact Or.inr ⟨rfl, htouches⟩
  · rintro (⟨other, hother, htouches⟩ | ⟨rfl, htouches⟩)
    · refine ⟨other, Or.inl hother, ?_⟩
      rwa [List.take_append_of_le_length (Nat.le_of_lt (lt_length_of_getElem? hother))]
    · refine ⟨use, Or.inr ⟨rfl, rfl⟩, ?_⟩
      rwa [List.take_left]

theorem lt_of_setAt {i : Nat} (h : SetAt uses id i) : i < uses.length := by
  obtain ⟨use, huse, -⟩ := h
  exact lt_length_of_getElem? huse

theorem lt_of_touchedAt {i : Nat} (h : TouchedAt capacity uses id i) : i < uses.length := by
  obtain ⟨use, huse, -⟩ := h
  exact lt_length_of_getElem? huse

theorem lastTouchedAt_concat_self (h : (after capacity uses).Touches id use) :
    LastTouchedAt capacity (uses ++ [use]) id uses.length := by
  unfold LastTouchedAt
  rw [touchedAt_concat]
  exact (isGreatest_concat (fun i hi => lt_of_touchedAt hi) _).1 h

theorem lastTouchedAt_concat (h : ¬ (after capacity uses).Touches id use) (i : Nat) :
    LastTouchedAt capacity (uses ++ [use]) id i ↔ LastTouchedAt capacity uses id i := by
  unfold LastTouchedAt
  rw [touchedAt_concat]
  exact (isGreatest_concat (fun i hi => lt_of_touchedAt hi) _).2 h i

theorem lastSet_concat_self (uses : List Use) (product : Product) :
    LastSet (uses ++ [.call (.set product)]) product.id product := by
  refine ⟨uses.length, ?_, by simp⟩
  rw [setAt_concat]
  exact (isGreatest_concat (fun i hi => lt_of_setAt hi) _).1 ⟨product, rfl, rfl⟩

theorem LastSet.concat (hlast : LastSet uses id product) (h : ¬ Sets id use) :
    LastSet (uses ++ [use]) id product := by
  obtain ⟨i, hi, hproduct⟩ := hlast
  refine ⟨i, ?_, ?_⟩
  · rw [setAt_concat]
    exact ((isGreatest_concat (fun i hi => lt_of_setAt hi) _).2 h i).2 hi
  · rw [List.getElem?_append_left (lt_length_of_getElem? hproduct)]
    exact hproduct

/-! ### The record -/

/-- What a history tells about the cache behind it. -/
structure Recorded (capacity : Nat) (uses : List Use) (cache : Cache) : Prop where
  size_le : cache.size ≤ capacity
  /-- Every text is that of the product that was set last. -/
  text : ∀ entry ∈ cache.entries, ∃ product, LastSet uses entry.1 product ∧ entry.2 = product.encode
  touched : ∀ entry ∈ cache.entries, ∃ i, LastTouchedAt capacity uses entry.1 i
  /-- Of two entries the one in front was touched later. -/
  order : cache.entries.Pairwise fun a b => ∃ i j,
    LastTouchedAt capacity uses a.1 i ∧ LastTouchedAt capacity uses b.1 j ∧ j < i

theorem recorded_empty (capacity : Nat) : Recorded capacity [] (empty capacity) :=
  ⟨Nat.zero_le _, nofun, nofun, List.Pairwise.nil⟩

theorem Recorded.nodup (h : Recorded capacity uses cache) : cache.keys.Nodup := by
  refine List.pairwise_map.2 (h.order.imp ?_)
  rintro a b ⟨i, j, hi, hj, hlt⟩ heq
  rw [heq] at hi
  have := hi.unique hj
  omega

/-- The record is kept by every use. -/
theorem Recorded.perform (hcapacity : 1 ≤ capacity)
    (h : Recorded capacity uses (after capacity uses)) (use : Use) :
    Recorded capacity (uses ++ [use]) ((after capacity uses).perform use) := by
  have hcap : (after capacity uses).capacity = capacity := capacity_after capacity uses
  -- entries that are not touched keep what is known of them
  have hstay : ∀ entry ∈ (after capacity uses).entries,
      ¬ (after capacity uses).Touches entry.1 use →
        (∃ product, LastSet (uses ++ [use]) entry.1 product ∧ entry.2 = product.encode) ∧
          ∃ i, LastTouchedAt capacity (uses ++ [use]) entry.1 i := by
    intro entry hentry hnot
    obtain ⟨product, hlast, htext⟩ := h.text entry hentry
    obtain ⟨i, hi⟩ := h.touched entry hentry
    exact ⟨⟨product, hlast.concat fun hsets => hnot (Or.inl hsets), htext⟩,
      i, (lastTouchedAt_concat hnot i).2 hi⟩
  have horder : ∀ kept : List (Int64 × String), kept.Sublist (after capacity uses).entries →
      (∀ entry ∈ kept, ¬ (after capacity uses).Touches entry.1 use) →
        kept.Pairwise fun a b => ∃ i j, LastTouchedAt capacity (uses ++ [use]) a.1 i ∧
          LastTouchedAt capacity (uses ++ [use]) b.1 j ∧ j < i := by
    intro kept hsub hnot
    refine (h.order.sublist hsub).imp_of_mem ?_
    rintro a b ha hb ⟨i, j, hi, hj, hlt⟩
    exact ⟨i, j, (lastTouchedAt_concat (hnot a ha) i).2 hi,
      (lastTouchedAt_concat (hnot b hb) j).2 hj, hlt⟩
  rcases perform_cases (hcap.symm ▸ hcapacity) use with ⟨hnot, hsub⟩ | ⟨id, text, kept, hfront⟩
  · exact ⟨Nat.le_trans hsub.length_le h.size_le,
      fun entry hentry => (hstay entry (hsub.subset hentry) (hnot _)).1,
      fun entry hentry => (hstay entry (hsub.subset hentry) (hnot _)).2,
      horder _ hsub fun entry _ => hnot _⟩
  · obtain ⟨htouches, hentries, hsub, hothers, hsize, hsource⟩ := hfront
    have hnot : ∀ entry ∈ kept, ¬ (after capacity uses).Touches entry.1 use :=
      fun entry hentry hk => hothers entry hentry (hk.eq htouches)
    have hlast := lastTouchedAt_concat_self htouches
    constructor
    · have hlt := hsize (hcap.symm ▸ h.size_le)
      unfold size
      rw [hentries, List.length_cons]
      omega
    · rw [hentries]
      refine List.forall_mem_cons.2 ⟨?_, fun entry hentry =>
        (hstay entry (hsub.subset hentry) (hnot entry hentry)).1⟩
      rcases hsource with ⟨product, rfl, rfl, rfl⟩ | ⟨hsets, hmem⟩
      · exact ⟨product, lastSet_concat_self uses product, rfl⟩
      · obtain ⟨product, hset, htext⟩ := h.text _ hmem
        exact ⟨product, hset.concat hsets, htext⟩
    · rw [hentries]
      exact List.forall_mem_cons.2 ⟨⟨_, hlast⟩, fun entry hentry =>
        (hstay entry (hsub.subset hentry) (hnot entry hentry)).2⟩
    · rw [hentries]
      refine List.pairwise_cons.2 ⟨fun entry hentry => ?_, horder kept hsub hnot⟩
      obtain ⟨j, hj⟩ := h.touched entry (hsub.subset hentry)
      exact ⟨_, j, hlast, (lastTouchedAt_concat (hnot entry hentry) j).2 hj,
        lt_of_touchedAt hj.1⟩

/-- **The record is kept** from a new cache on. -/
theorem recorded_after (hcapacity : 1 ≤ capacity) (uses : List Use) :
    Recorded capacity uses (after capacity uses) := by
  induction uses using List.reverseRecOn with
  | nil => exact recorded_empty capacity
  | append_singleton uses use ih =>
    rw [after_concat]
    exact ih.perform hcapacity use

/-! ### What leaves, and what stays -/

/-- An entry leaves when it is deleted, when all are, or when a full cache is given a product that
it does not have. -/
theorem leaves_cases (hsize : cache.size ≤ cache.capacity) (hbefore : id ∈ cache.keys)
    (hafter : id ∉ (cache.perform use).keys) :
    use = .call (.delete id) ∨ use = .call .clear ∨
      ∃ product, use = .call (.set product) ∧ product.id ∉ cache.keys ∧
        cache.size = cache.capacity := by
  obtain ⟨text, hmem⟩ := mem_keys.1 hbefore
  have hgone : ∀ text, (id, text) ∉ (cache.perform use).entries :=
    fun text h => hafter (mem_keys.2 ⟨text, h⟩)
  have hothers : ∀ k, k ≠ id → (id, text) ∈ cache.others k :=
    fun k hk => mem_others.2 ⟨hmem, Ne.symm hk⟩
  cases use with
  | contains k => exact absurd hbefore hafter
  | size => exact absurd hbefore hafter
  | call call =>
    cases call with
    | clear => exact Or.inr (Or.inl rfl)
    | delete k =>
      by_cases hk : k = id
      · exact Or.inl (by rw [hk])
      · refine absurd ?_ (hgone text)
        show (id, text) ∈ (cache.delete k).2.entries
        unfold delete
        split
        · exact hothers k hk
        · exact hmem
    | get k =>
      cases hp : cache.peek? k with
      | none =>
        refine absurd ?_ (hgone text)
        show (id, text) ∈ (cache.get k).2.entries
        unfold get
        rw [hp]
        exact hmem
      | some found =>
        have hentries :
            (cache.perform (.call (.get k))).entries = (k, found) :: cache.others k := by
          show (cache.get k).2.entries = _
          unfold get
          rw [hp]
        by_cases hk : k = id
        · refine absurd ?_ (hgone found)
          rw [hentries, hk]
          exact List.mem_cons_self ..
        · refine absurd ?_ (hgone text)
          rw [hentries]
          exact List.mem_cons_of_mem _ (hothers k hk)
    | set product =>
      by_cases hroom : product.id ∈ cache.keys ∨ cache.size < cache.capacity
      · exfalso
        by_cases hk : product.id = id
        · refine hgone product.encode ?_
          rw [show (cache.perform (.call (.set product))).entries = _ from
            entries_set_of_room hroom, hk]
          exact List.mem_cons_self ..
        · refine hgone text ?_
          rw [show (cache.perform (.call (.set product))).entries = _ from
            entries_set_of_room hroom]
          exact List.mem_cons_of_mem _ (hothers product.id hk)
      · obtain ⟨hkey, hfull⟩ := not_or.1 hroom
        exact Or.inr (Or.inr ⟨product, rfl, hkey, by omega⟩)

theorem entries_get_of_error {e : CacheError} (h : (cache.get id).1 = .error e) :
    (cache.get id).2.entries = cache.entries := by
  unfold get at h ⊢
  split
  · rename_i hp
    rw [hp] at h
    cases h
  · rfl

theorem entries_delete_of_error {e : CacheError} (h : (cache.delete id).1 = .error e) :
    (cache.delete id).2.entries = cache.entries := by
  unfold delete at h ⊢
  split
  · rename_i hc
    rw [if_pos hc] at h
    cases h
  · rfl

/-- **A cache holds what was used last.** Behind any uses of a new cache:
* it holds no more than its capacity, and nothing twice;
* a look-up succeeds exactly for what is there, and gives the text of the product that was set last
  under the identifier;
* a product leaves only when it is deleted, when all are, or when another is set that is not there
  while the cache is full;
* and then exactly one leaves, the one whose last touch, by setting or by finding it, is the oldest;
* a product is there once it was set, and gone once it was deleted or all were;
* asking whether a product is there or how many are, looking up what is not there and deleting what
  is not there leave the entries and their order as they are. -/
theorem lru (hcapacity : 1 ≤ capacity) (uses : List Use) :
    let cache := after capacity uses
    (cache.size ≤ capacity ∧ cache.keys.Nodup ∧ ∀ id, cache.contains id = true ↔ id ∈ cache.keys) ∧
    (∀ id, ((∃ text, (cache.get id).1 = .ok text) ↔ id ∈ cache.keys) ∧
      ∀ text, (cache.get id).1 = .ok text →
        ∃ product, LastSet uses id product ∧ text = product.encode) ∧
    (∀ use id, id ∈ cache.keys → id ∉ (after capacity (uses ++ [use])).keys →
      use = .call (.delete id) ∨ use = .call .clear ∨
        ∃ product, use = .call (.set product) ∧ product.id ∉ cache.keys ∧ cache.size = capacity) ∧
    (∀ product, product.id ∉ cache.keys → cache.size = capacity →
      ∃ kept victim, cache.entries = kept ++ [victim] ∧
        (after capacity (uses ++ [.call (.set product)])).entries =
          (product.id, product.encode) :: kept ∧
        ∃ i, LastTouchedAt capacity uses victim.1 i ∧
          ∀ id ∈ cache.keys, id ≠ victim.1 → ∃ j, LastTouchedAt capacity uses id j ∧ i < j) ∧
    ((∀ product, (product.id, product.encode) ∈
        (after capacity (uses ++ [.call (.set product)])).entries) ∧
      (∀ id, id ∉ (after capacity (uses ++ [.call (.delete id)])).keys) ∧
      (after capacity (uses ++ [.call .clear])).keys = []) ∧
    ∀ use, (∃ id, use = .contains id) ∨ use = .size ∨
        (∃ id e, use = .call (.get id) ∧ (cache.get id).1 = .error e) ∨
        (∃ id e, use = .call (.delete id) ∧ (cache.delete id).1 = .error e) →
      (after capacity (uses ++ [use])).entries = cache.entries := by
  intro cache
  have hrecord : Recorded capacity uses cache := recorded_after hcapacity uses
  have hcap : cache.capacity = capacity := capacity_after capacity uses
  refine ⟨⟨hrecord.size_le, hrecord.nodup, fun id => contains_iff⟩,
    fun id => ⟨exists_get_eq_ok_iff, fun text htext => ?_⟩, fun use id hbefore hgone => ?_,
    fun product hkey hfull => ?_, ⟨fun product => ?_, fun id => ?_, ?_⟩, fun use huse => ?_⟩
  · exact hrecord.text _ (mem_of_peek? (get_eq_ok_iff.1 htext))
  · rw [after_concat] at hgone
    rw [← hcap]
    exact leaves_cases (hcap.symm ▸ hrecord.size_le) hbefore hgone
  · obtain ⟨victim, hsplit, hentries⟩ := entries_set_of_full (hcap.symm ▸ hcapacity)
      (hcap.trans hfull.symm).le hkey
    have hvictim : victim ∈ cache.entries := by
      rw [hsplit]
      exact List.mem_append_right _ (List.mem_singleton_self victim)
    obtain ⟨i, hi⟩ := hrecord.touched victim hvictim
    refine ⟨cache.entries.dropLast, victim, hsplit, ?_, i, hi, fun id hid hne => ?_⟩
    · rw [after_concat]
      exact hentries
    · obtain ⟨text, hmem⟩ := mem_keys.1 hid
      have horder := hrecord.order
      rw [hsplit] at horder hmem
      -- whoever is not the last one stands in front of it
      rcases List.mem_append.1 hmem with hfront | hlast
      · obtain ⟨j, k, hj, hk, hlt⟩ :=
          (List.pairwise_append.1 horder).2.2 _ hfront victim (List.mem_singleton_self victim)
        exact ⟨j, hj, hk.unique hi ▸ hlt⟩
      · exact absurd (congrArg Prod.fst (List.mem_singleton.1 hlast)) hne
  · rw [after_concat]
    exact cache.mem_set_self product
  · rw [after_concat]
    exact absent_iff.1 (cache.absent_delete id)
  · rw [after_concat]
    rfl
  · rw [after_concat]
    rcases huse with ⟨id, rfl⟩ | rfl | ⟨id, e, rfl, herror⟩ | ⟨id, e, rfl, herror⟩
    · rfl
    · rfl
    · exact entries_get_of_error herror
    · exact entries_delete_of_error herror

/-- Of three products in a cache for two, the one that was looked up stays. -/
theorem lru_of_three :
    let uses : List Use := [.call (.set ⟨1, "a", "x"⟩), .call (.set ⟨2, "b", "y"⟩), .call (.get 1)]
    let third : Product := ⟨3, "c", "z"⟩
    1 ≤ 2 ∧ (after 2 uses).keys = [1, 2] ∧
      (after 2 (uses ++ [.call (.set third)])).keys = [3, 1] ∧
      ∃ kept victim, (after 2 uses).entries = kept ++ [victim] ∧
        (after 2 (uses ++ [.call (.set third)])).entries = (3, third.encode) :: kept ∧
        ∃ i, LastTouchedAt 2 uses victim.1 i ∧
          ∀ id ∈ (after 2 uses).keys, id ≠ victim.1 →
            ∃ j, LastTouchedAt 2 uses id j ∧ i < j := by
  intro uses third
  have hkeys : (after 2 uses).keys = [1, 2] := by rfl
  have hthird : third.id ∉ (after 2 uses).keys := by
    rw [hkeys]
    decide
  have htwo : 1 ≤ 2 := by decide
  exact ⟨htwo, hkeys, by rfl, (lru htwo uses).2.2.2.1 third hthird rfl⟩

end Catalogue.Cache
