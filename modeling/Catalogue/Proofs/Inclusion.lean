import Catalogue.Proofs.Recency
import Catalogue.Proofs.Transparency

/-!
# Small and large caches

Errands are run one after another on healthy backends, once with a small cache and once with a
large one. The large one always holds all that the small one holds, so it answers every look-up that
the small one answers, and the store is asked for less (`Stack.larger_cache_reads_less`).

That the one holds what the other holds is not kept by itself. What is kept is that the small cache
holds its products in the same order as the large one, and that the large one has no more products
besides than it has room for besides (`Inclusion`): then the small cache is full whenever the large
one is, and what the large one drops has left the small one before.

The two runs do not ask for the same. What is a hit for the large cache may be a miss for the small
one, and then the small one is given the product in a call of its own; but the hit has put it in
front in the large one, too (`Inclusion.refill`).
-/

namespace Catalogue

/-! ### Identifiers in the order of their last use -/

/-- Identifiers behind a use of one of them, when there is room for some number. -/
def touched (capacity : Nat) (id : Int64) (keys : List Int64) : List Int64 :=
  id :: if id ∈ keys ∨ keys.length < capacity then keys.filter (· != id) else keys.dropLast

/-- What a small cache holds is in a large one in the same order, and the large one has no more
besides than it has room for besides. -/
structure Inclusion (room room' : Nat) (small large : List Int64) : Prop where
  sublist : small.Sublist large
  nodup : large.Nodup
  small_le : small.length ≤ room
  large_le : large.length ≤ room'
  gap : large.length + room ≤ small.length + room'

section

variable {id : Int64} {keys small large : List Int64} {room room' : Nat}

theorem length_filter_of_mem (hkeys : keys.Nodup) (h : id ∈ keys) :
    (keys.filter (· != id)).length + 1 = keys.length := by
  have hpos := List.length_pos_of_mem h
  rw [← hkeys.erase_eq_filter, List.length_erase_of_mem h]
  omega

theorem filter_of_not_mem (h : id ∉ keys) : keys.filter (· != id) = keys := by
  rw [List.filter_eq_self]
  rintro k hk
  exact bne_iff_ne.2 fun heq => h (heq ▸ hk)

theorem dropLast_sublist_dropLast (h : small.Sublist large) :
    small.dropLast.Sublist large.dropLast := by
  have htail := h.reverse.tail
  rw [List.tail_reverse, List.tail_reverse] at htail
  exact List.reverse_sublist.1 htail

/-- A product that is touched is put in front of some others, none of which it is. -/
theorem exists_touched (room : Nat) (id : Int64) (keys : List Int64) :
    ∃ kept, touched room id keys = id :: kept ∧ kept.Sublist keys ∧ id ∉ kept := by
  refine ⟨_, rfl, ?_⟩
  split
  · exact ⟨List.filter_sublist, by simp⟩
  · rename_i h
    exact ⟨List.dropLast_sublist _, fun hid => h (Or.inl (List.dropLast_subset _ hid))⟩

/-- How many there are behind a use. -/
theorem length_touched (id : Int64) (hroom : 1 ≤ room) (hkeys : keys.Nodup)
    (hle : keys.length ≤ room) :
    (touched room id keys).length =
      if id ∈ keys then keys.length else min (keys.length + 1) room := by
  unfold touched
  by_cases hid : id ∈ keys
  · have := length_filter_of_mem hkeys hid
    simp only [hid, true_or, if_true, List.length_cons]
    omega
  · by_cases hless : keys.length < room
    · simp only [hid, hless, or_true, if_true, if_false, List.length_cons, filter_of_not_mem hid]
      omega
    · simp only [hid, hless, or_self, if_false, List.length_cons, List.length_dropLast]
      omega

variable (h : Inclusion room room' small large)

include h

theorem Inclusion.small_nodup : small.Nodup := h.nodup.sublist h.sublist

theorem Inclusion.touched_sublist (id : Int64) :
    (touched room id small).Sublist (touched room' id large) := by
  have hgap := h.gap
  have hfilter := h.sublist.filter (· != id)
  refine List.cons_sublist_cons.2 ?_
  by_cases hroomy : id ∈ large ∨ large.length < room'
  · rw [if_pos hroomy]
    split
    · exact hfilter
    · rename_i hfull
      rw [filter_of_not_mem fun hid => hfull (Or.inl hid)] at hfilter
      exact (List.dropLast_sublist _).trans hfilter
  · -- the large one drops its last, and then the small one is full, too
    obtain ⟨hnew, hfull⟩ := not_or.1 hroomy
    have hfull : ¬ (id ∈ small ∨ small.length < room) := by
      rintro (hold | hless)
      · exact hnew (h.sublist.subset hold)
      · omega
    rw [if_neg hroomy, if_neg hfull]
    exact dropLast_sublist_dropLast h.sublist

/-- A use of the same product keeps the inclusion. -/
theorem Inclusion.touch (hroom : 1 ≤ room) (id : Int64) :
    Inclusion room room' (touched room id small) (touched room' id large) := by
  have hlength := h.sublist.length_le
  have hsmall := h.small_le
  have hlarge := h.large_le
  have hgap := h.gap
  have hlen := length_touched id hroom h.small_nodup hsmall
  have hlen' := length_touched id (by omega) h.nodup hlarge
  obtain ⟨kept, htouched, hkept, hid⟩ := exists_touched room' id large
  refine ⟨h.touched_sublist id, ?_, ?_, ?_, ?_⟩
  · rw [htouched]
    exact List.nodup_cons.2 ⟨hid, h.nodup.sublist hkept⟩
  · rw [hlen]
    split <;> omega
  · rw [hlen']
    split <;> omega
  · rw [hlen, hlen']
    by_cases hold : id ∈ small
    · rw [if_pos hold, if_pos (h.sublist.subset hold)]
      exact hgap
    · rw [if_neg hold]
      split <;> omega

/-- A use that only the large one takes notice of changes nothing that matters. -/
theorem Inclusion.touch_large (hroom : 1 ≤ room) (hsmall : id ∉ small) (hlarge : id ∈ large) :
    Inclusion room room' small (touched room' id large) := by
  have hlength := h.sublist.length_le
  have hlen := length_touched id (by have := h.gap; omega) h.nodup h.large_le
  obtain ⟨kept, htouched, hkept, hid⟩ := exists_touched room' id large
  rw [if_pos hlarge] at hlen
  refine ⟨?_, ?_, h.small_le, hlen ▸ h.large_le, hlen ▸ h.gap⟩
  · have hfilter := h.sublist.filter (· != id)
    rw [filter_of_not_mem hsmall] at hfilter
    unfold touched
    rw [if_pos (Or.inl hlarge)]
    exact hfilter.cons id
  · rw [htouched]
    exact List.nodup_cons.2 ⟨hid, h.nodup.sublist hkept⟩

/-- What stands in front in the large one may be used in the small one alone. -/
theorem Inclusion.refill {kept : List Int64} (hroom : 1 ≤ room) (hsmall : id ∉ small)
    (hlarge : large = id :: kept) : Inclusion room room' (touched room id small) large := by
  subst hlarge
  have hlen := length_touched id hroom h.small_nodup h.small_le
  have hle := h.small_le
  have hgap := h.gap
  obtain ⟨others, htouched, hothers, -⟩ := exists_touched room id small
  rw [if_neg hsmall] at hlen
  refine ⟨?_, h.nodup, by omega, h.large_le, by omega⟩
  have hkept : small.Sublist kept := by
    refine (List.sublist_cons_iff.1 h.sublist).resolve_right ?_
    rintro ⟨rest, rfl, -⟩
    exact hsmall (List.mem_cons_self ..)
  rw [htouched]
  exact List.cons_sublist_cons.2 (hothers.trans hkept)

theorem Inclusion.filter (id : Int64) :
    Inclusion room room' (small.filter (· != id)) (large.filter (· != id)) := by
  have hsmall : id ∈ small → _ := length_filter_of_mem h.small_nodup
  have hlarge : id ∈ large → _ := length_filter_of_mem h.nodup
  have hgap := h.gap
  refine ⟨h.sublist.filter _, h.nodup.filter _, ?_, ?_, ?_⟩
  · exact (List.length_filter_le ..).trans h.small_le
  · exact (List.length_filter_le ..).trans h.large_le
  · by_cases hold : id ∈ small
    · have := hsmall hold
      have := hlarge (h.sublist.subset hold)
      omega
    · rw [filter_of_not_mem hold]
      have := List.length_filter_le (· != id) large
      omega

theorem Inclusion.nil : Inclusion room room' [] [] := by
  have hlength := h.sublist.length_le
  have hgap := h.gap
  refine ⟨List.Sublist.refl _, List.nodup_nil, Nat.zero_le _, Nat.zero_le _, ?_⟩
  simp only [List.length_nil]
  omega

end

/-! ### One call -/

namespace Cache

variable {cache : Cache} {id : Int64}

theorem keys_others (cache : Cache) (id : Int64) :
    (cache.others id).map Prod.fst = cache.keys.filter (· != id) := by
  unfold others keys
  rw [List.filter_map]
  rfl

theorem keys_get_of_mem (h : id ∈ cache.keys) :
    (cache.get id).2.keys = touched cache.capacity id cache.keys := by
  obtain ⟨text, htext⟩ := exists_get_eq_ok_iff.2 h
  have hentries : (cache.get id).2.entries = (id, text) :: cache.others id := by
    unfold get
    rw [get_eq_ok_iff.1 htext]
  unfold touched
  rw [if_pos (Or.inl h), ← keys_others]
  unfold keys
  rw [hentries, List.map_cons]

theorem keys_get_of_not_mem (h : id ∉ cache.keys) : (cache.get id).2.keys = cache.keys := by
  have hnone : cache.peek? id = none := by
    rw [← contains_iff, contains, Bool.not_eq_true, Option.isSome_eq_false_iff] at h
    exact Option.isNone_iff_eq_none.1 h
  unfold get
  rw [hnone]
  rfl

theorem keys_set (hcapacity : 1 ≤ cache.capacity) (product : Product) :
    (cache.set product).2.keys = touched cache.capacity product.id cache.keys := by
  have hsize : cache.size = cache.keys.length := (List.length_map ..).symm
  unfold touched
  by_cases hroom : product.id ∈ cache.keys ∨ cache.keys.length < cache.capacity
  · rw [if_pos hroom, ← keys_others]
    rw [← hsize] at hroom
    unfold keys
    rw [entries_set_of_room hroom, List.map_cons]
  · rw [if_neg hroom]
    obtain ⟨hnew, hfull⟩ := not_or.1 hroom
    obtain ⟨victim, -, hentries⟩ := entries_set_of_full hcapacity (by omega) hnew
    unfold keys
    rw [hentries, List.map_cons, List.map_dropLast]

theorem keys_delete (cache : Cache) (id : Int64) :
    (cache.delete id).2.keys = cache.keys.filter (· != id) := by
  unfold delete
  split
  · exact keys_others cache id
  · rename_i h
    rw [contains_iff] at h
    exact (filter_of_not_mem h).symm

end Cache

/-- The rows are the same, and the small cache is included in the large one. -/
structure Backends.Nested (small large : Backends) : Prop where
  table : small.table = large.table
  room : 1 ≤ small.cache.capacity
  keys : Inclusion small.cache.capacity large.cache.capacity small.cache.keys large.cache.keys

namespace Backends

variable {small large : Backends} {fresh : Int64}

theorem capacity_act (s : Backends) (call : Call) :
    (s.act fresh call).2.cache.capacity = s.cache.capacity := by
  cases call with
  | store call => rfl
  | cache call => exact s.cache.capacity_perform (.call call)

/-- A call that both are asked keeps them nested. -/
theorem Nested.act (h : small.Nested large) (call : Call) :
    (small.act fresh call).2.Nested (large.act fresh call).2 := by
  obtain ⟨htable, hroom, hkeys⟩ := h
  have hroom' : 1 ≤ large.cache.capacity := by
    have := hkeys.gap
    have := hkeys.sublist.length_le
    omega
  refine ⟨?_, ?_, ?_⟩
  · cases call with
    | store call => exact congrArg (fun table : Table => (table.answer fresh call).2) htable
    | cache call => exact htable
  · rw [capacity_act]
    exact hroom
  · rw [capacity_act, capacity_act]
    cases call with
    | store call => exact hkeys
    | cache call =>
      cases call with
      | get id =>
        show Inclusion _ _ (small.cache.get id).2.keys (large.cache.get id).2.keys
        by_cases hsmall : id ∈ small.cache.keys
        · rw [Cache.keys_get_of_mem hsmall,
            Cache.keys_get_of_mem (hkeys.sublist.subset hsmall)]
          exact hkeys.touch hroom id
        · rw [Cache.keys_get_of_not_mem hsmall]
          by_cases hlarge : id ∈ large.cache.keys
          · rw [Cache.keys_get_of_mem hlarge]
            exact hkeys.touch_large hroom hsmall hlarge
          · rw [Cache.keys_get_of_not_mem hlarge]
            exact hkeys
      | set product =>
        show Inclusion _ _ (small.cache.set product).2.keys (large.cache.set product).2.keys
        rw [Cache.keys_set hroom, Cache.keys_set hroom']
        exact hkeys.touch hroom product.id
      | delete id =>
        show Inclusion _ _ (small.cache.delete id).2.keys (large.cache.delete id).2.keys
        rw [Cache.keys_delete, Cache.keys_delete]
        exact hkeys.filter id
      | clear => exact hkeys.nil

/-- The backends behind calls, one after another. -/
def behind (fresh : Int64) (s : Backends) (calls : List Call) : Backends :=
  calls.foldl (fun s call => (s.act fresh call).2) s

theorem Nested.behind {calls : List Call} (h : small.Nested large) :
    (small.behind fresh calls).Nested (large.behind fresh calls) := by
  induction calls generalizing small large with
  | nil => exact h
  | cons call calls ih => exact ih (h.act call)

/-- The small cache may be given what stands in front in the large one. -/
theorem Nested.refill {product : Product} {kept : List Int64} (h : small.Nested large)
    (hsmall : product.id ∉ small.cache.keys) (hlarge : large.cache.keys = product.id :: kept) :
    (small.act fresh (.cache (.set product))).2.Nested large := by
  obtain ⟨htable, hroom, hkeys⟩ := h
  refine ⟨htable, ?_, ?_⟩
  · rw [capacity_act]
    exact hroom
  · rw [capacity_act]
    show Inclusion _ _ (small.cache.set product).2.keys _
    rw [Cache.keys_set hroom]
    exact hkeys.refill hroom hsmall hlarge

end Backends

/-! ### One operation -/

/-- Nothing is failed on purpose. -/
def healthy : Nat → Option String := fun _ => none

/-- The calls that a run on a stack makes, with their answers. -/
def Program.askedOn {α : Type} (faults : Nat → Option String) (fresh : Int64) :
    Program α → Stack → List Answered
  | .done _, _ => []
  | .ask call next, stack =>
    let answered := stack.answer faults fresh call
    ⟨call, answered.1⟩ :: (next answered.1).askedOn faults fresh answered.2
  | .log _ rest, stack => rest.askedOn faults fresh stack

/-- The calls that an operation makes of healthy backends. -/
def Operation.calls (fresh : Int64) (s : Backends) : Operation → List Call
  | .fetch id => .cache (.get id) ::
      if s.cache.contains id then []
      else .store (.find id) :: (s.table.row? id).toList.map fun row => .cache (.set row)
  | .list => [.store .list]
  | .page window => [.store (.page window)]
  | .create draft => [.store (.insert draft), .cache (.set (draft.withId fresh))]
  | .update id draft => [.cache (.delete id), .store (.update id draft)]
  | .delete id => [.cache (.delete id), .store (.delete id)]
  | .deleteAll => [.cache .clear, .store .purge]
  | .ping => [.store .ping]

variable {α : Type} {fresh : Int64} {stack : Stack}

namespace Program

theorem askedOn_cache_bind (call : CacheCall) (f : Except CacheError call.Value → Program α) :
    (cache call >>= f).askedOn healthy fresh stack =
      ⟨.cache call, (stack.backends.cache.answer call).1⟩ ::
        (f (stack.backends.cache.answer call).1).askedOn healthy fresh
          ⟨(stack.backends.act fresh (.cache call)).2, stack.calls + 1⟩ := by
  show _ :: (f (stack.answer healthy fresh (.cache call)).1).askedOn healthy fresh _ = _
  unfold healthy
  rw [Stack.answer_of_no_faults]
  rfl

theorem askedOn_store_bind (call : StoreCall) (f : Except StoreError call.Value → Program α) :
    (store call >>= f).askedOn healthy fresh stack =
      ⟨.store call, (stack.backends.table.answer fresh call).1⟩ ::
        (f (stack.backends.table.answer fresh call).1).askedOn healthy fresh
          ⟨(stack.backends.act fresh (.store call)).2, stack.calls + 1⟩ := rfl

/-- What is behind a run is behind the calls that it makes. -/
theorem backends_runOn (program : Program α) :
    (program.runOn healthy fresh stack).2.backends =
      stack.backends.behind fresh ((program.askedOn healthy fresh stack).map Answered.call) := by
  induction program generalizing stack with
  | done value => rfl
  | ask call next ih =>
    unfold runOn askedOn
    rw [ih, List.map_cons]
    have hcall : (stack.answer healthy fresh call).2.backends =
        (stack.backends.act fresh call).2 := by
      unfold healthy
      rw [Stack.answer_of_no_faults]
    rw [hcall]
    rfl
  | log event rest ih => exact ih

end Program

namespace Service

open Program

theorem fetchFromStore_calls (requestId : String) (id : Int64) (earlier : List Fault) :
    ((fetchFromStore requestId id earlier).askedOn healthy fresh stack).map Answered.call =
      .store (.find id) :: (stack.backends.table.row? id).toList.map fun row =>
        .cache (.set row) := by
  unfold fetchFromStore
  rw [askedOn_store_bind, List.map_cons]
  refine congrArg (_ :: ·) ?_
  dsimp only [Table.answer, Table.find]
  cases stack.backends.table.row? id with
  | none => rfl
  | some row => rfl

theorem fetch_calls (requestId : String) (id : Int64) :
    ((fetch requestId id).askedOn healthy fresh stack).map Answered.call =
      (Operation.fetch id).calls fresh stack.backends := by
  unfold fetch Operation.calls
  rw [askedOn_cache_bind, List.map_cons]
  refine congrArg (_ :: ·) ?_
  cases hp : stack.backends.cache.peek? id with
  | none =>
    have hmiss : (stack.backends.cache.answer (.get id)).1 = .error (.notFound id) := by
      simp [Cache.answer, Cache.get, hp]
    rw [hmiss, if_neg (by simp [Cache.contains, hp])]
    exact fetchFromStore_calls requestId id []
  | some text =>
    have hhit : (stack.backends.cache.answer (.get id)).1 = .ok text := by
      simp [Cache.answer, Cache.get, hp]
    rw [hhit, if_pos (by simp [Cache.contains, hp])]
    rfl

/-- A change of a row is asked for whether or not there was a text to be dropped. -/
theorem replace_calls {id : Int64} {change : Program (Except StoreError Product)} {call : Call}
    (h : ∀ earlier stack', ((conclude earlier change).askedOn healthy fresh stack').map
      Answered.call = [call]) :
    ((replace id change).askedOn healthy fresh stack).map Answered.call =
      [.cache (.delete id), call] := by
  rw [replace_eq, askedOn_cache_bind, List.map_cons]
  refine congrArg (_ :: ·) ?_
  dsimp only [Cache.answer, Cache.delete]
  cases stack.backends.cache.contains id
  · exact h ..
  · exact h ..

end Service

theorem Operation.calls_eq (requestId : String) (operation : Operation) :
    ((operation.program requestId).askedOn healthy fresh stack).map Answered.call =
      operation.calls fresh stack.backends := by
  cases operation with
  | fetch id => exact Service.fetch_calls requestId id
  | list => rfl
  | page window => rfl
  | create draft => rfl
  | update id draft => exact Service.replace_calls fun _ _ => rfl
  | delete id => exact Service.replace_calls fun _ _ => rfl
  | deleteAll => rfl
  | ping => rfl

namespace Operation

variable {s : Backends} {id : Int64}

theorem calls_fetch_of_mem (h : id ∈ s.cache.keys) :
    (fetch id).calls fresh s = [.cache (.get id)] := by
  show _ :: (if s.cache.contains id = true then [] else _) = _
  rw [if_pos (Cache.contains_iff.2 h)]

theorem calls_fetch_of_not_mem (h : id ∉ s.cache.keys) :
    (fetch id).calls fresh s = .cache (.get id) :: .store (.find id) ::
      (s.table.row? id).toList.map fun row => .cache (.set row) := by
  show _ :: (if s.cache.contains id = true then [] else _) = _
  rw [if_neg (h ∘ Cache.contains_iff.1)]

/-- The first thing that a fetch asks for is the text, and it does not ask for one again. -/
theorem asked_fetch (fresh : Int64) (stack : Stack) (requestId : String) (id : Int64) :
    ∃ rest, ((fetch id).program requestId).askedOn healthy fresh stack =
        ⟨.cache (.get id), (stack.backends.cache.get id).1⟩ :: rest ∧
      ∀ answered ∈ rest, ∀ k, answered.call ≠ .cache (.get k) := by
  have hcalls : _ = (fetch id).calls fresh stack.backends := (fetch id).calls_eq requestId
  obtain ⟨rest, hrest⟩ : ∃ rest, ((fetch id).program requestId).askedOn healthy fresh stack =
      ⟨.cache (.get id), (stack.backends.cache.get id).1⟩ :: rest :=
    ⟨_, Program.askedOn_cache_bind _ _⟩
  refine ⟨rest, hrest, fun answered hmem k hk => ?_⟩
  rw [hrest, List.map_cons] at hcalls
  have hlater := List.mem_map_of_mem (f := Answered.call) hmem
  rw [(List.cons.inj hcalls).2, hk] at hlater
  split at hlater
  · cases hlater
  · simp at hlater

end Operation

/-- What an operation does keeps them nested, even if the small cache is asked for more. -/
theorem Backends.Nested.operation {small large : Backends} (h : small.Nested large)
    (operation : Operation) :
    (small.behind fresh (operation.calls fresh small)).Nested
      (large.behind fresh (operation.calls fresh large)) := by
  cases operation with
  | list | page window | create draft | update id draft | delete id | deleteAll | ping =>
    exact h.behind
  | fetch id =>
    by_cases hsmall : id ∈ small.cache.keys
    · have hlarge := h.keys.sublist.subset hsmall
      rw [Operation.calls_fetch_of_mem hsmall, Operation.calls_fetch_of_mem hlarge]
      exact h.behind
    · rw [Operation.calls_fetch_of_not_mem hsmall]
      by_cases hlarge : id ∈ large.cache.keys
      · rw [Operation.calls_fetch_of_mem hlarge]
        -- the small one looks in vain, and is given the row that the large one has looked up
        have hlook : (small.act fresh (.cache (.get id))).2.Nested
            (large.act fresh (.cache (.get id))).2 := h.act _
        cases hrow : small.table.row? id with
        | none => exact hlook
        | some row =>
          obtain rfl := Table.id_of_row? hrow
          refine hlook.refill ?_ (Cache.keys_get_of_mem hlarge)
          show row.id ∉ (small.cache.get row.id).2.keys
          rw [Cache.keys_get_of_not_mem hsmall]
          exact hsmall
      · rw [Operation.calls_fetch_of_not_mem hlarge, h.table]
        exact h.behind

/-! ### Errands -/

/-- An operation, with the identifier of its request and the one that a new row gets. -/
structure Errand where
  requestId : String
  operation : Operation
  fresh : Int64

/-- The call, if it is one of the store. -/
def Call.store? : Call → Option StoreCall
  | .store call => some call
  | .cache _ => none

namespace Errand

/-- The calls that an errand makes of a stack where nothing fails, with their answers. -/
def asked (errand : Errand) (stack : Stack) : List Answered :=
  (errand.operation.program errand.requestId).askedOn healthy errand.fresh stack

/-- The stack behind an errand. -/
def behind (errand : Errand) (stack : Stack) : Stack :=
  ((errand.operation.program errand.requestId).runOn healthy errand.fresh stack).2

/-- The cache gave the text that was asked for. -/
def FromCache (errand : Errand) (stack : Stack) : Prop :=
  ∃ id text, (⟨.cache (.get id), .ok text⟩ : Answered) ∈ errand.asked stack

/-- What an errand asks of the store. -/
def storeCalls (errand : Errand) (stack : Stack) : List StoreCall :=
  (errand.asked stack).filterMap fun answered => answered.call.store?

end Errand

namespace Stack

/-- Some rows beneath an empty cache. -/
def cold (table : Table) (capacity : Nat) : Stack := ⟨⟨table, Cache.empty capacity⟩, 0⟩

/-- The stack behind errands that are run one after another. -/
def run (stack : Stack) (errands : List Errand) : Stack :=
  errands.foldl (fun stack errand => errand.behind stack) stack

/-- What errands that are run one after another ask of the store. -/
def storeCalls : Stack → List Errand → List StoreCall
  | _, [] => []
  | stack, errand :: rest => errand.storeCalls stack ++ storeCalls (errand.behind stack) rest

end Stack

namespace Errand

variable {errand : Errand} {small large : Stack}

theorem storeCalls_eq (errand : Errand) (stack : Stack) :
    errand.storeCalls stack =
      (errand.operation.calls errand.fresh stack.backends).filterMap Call.store? := by
  unfold storeCalls asked
  rw [← Operation.calls_eq errand.requestId, List.filterMap_map]
  rfl

theorem nested_behind (h : small.backends.Nested large.backends) (errand : Errand) :
    (errand.behind small).backends.Nested (errand.behind large).backends := by
  unfold behind
  rw [Program.backends_runOn, Program.backends_runOn, Operation.calls_eq, Operation.calls_eq]
  exact h.operation errand.operation

/-- Only a fetch can be answered by the cache, and it is if the product is there. -/
theorem fromCache_iff {stack : Stack} :
    errand.FromCache stack ↔
      ∃ id, errand.operation = .fetch id ∧ id ∈ stack.backends.cache.keys := by
  obtain ⟨requestId, operation, fresh⟩ := errand
  constructor
  · rintro ⟨id, text, hmem⟩
    have hcall : .cache (.get id) ∈ operation.calls fresh stack.backends := by
      rw [← Operation.calls_eq requestId]
      exact List.mem_map_of_mem hmem
    cases operation with
    | list | page window | create draft | update id draft | delete id | deleteAll | ping =>
      simp [Operation.calls] at hcall
    | fetch k =>
      obtain ⟨rest, hasked, hrest⟩ := Operation.asked_fetch fresh stack requestId k
      change _ ∈ ((Operation.fetch k).program requestId).askedOn healthy fresh stack at hmem
      rw [hasked] at hmem
      refine ⟨k, rfl, Cache.exists_get_eq_ok_iff.1 ?_⟩
      generalize (stack.backends.cache.get k).1 = answer at hmem ⊢
      rcases List.mem_cons.1 hmem with heq | hlater
      · cases heq
        exact ⟨text, rfl⟩
      · exact absurd rfl (hrest _ hlater id)
  · rintro ⟨id, rfl, hid⟩
    obtain ⟨text, htext⟩ := Cache.exists_get_eq_ok_iff.2 hid
    obtain ⟨rest, hasked, -⟩ := Operation.asked_fetch fresh stack requestId id
    refine ⟨id, text, ?_⟩
    show _ ∈ ((Operation.fetch id).program requestId).askedOn healthy fresh stack
    rw [hasked, htext]
    exact List.mem_cons_self ..

/-- The store is asked for less with the large cache. -/
theorem storeCalls_sublist (h : small.backends.Nested large.backends) (errand : Errand) :
    (errand.storeCalls large).Sublist (errand.storeCalls small) := by
  rw [storeCalls_eq, storeCalls_eq]
  cases errand.operation with
  | list | page window | create draft | update id draft | delete id | deleteAll | ping =>
    exact List.Sublist.refl _
  | fetch id =>
    by_cases hlarge : id ∈ large.backends.cache.keys
    · rw [Operation.calls_fetch_of_mem hlarge]
      exact List.nil_sublist _
    · have hsmall : id ∉ small.backends.cache.keys := fun hid =>
        hlarge (h.keys.sublist.subset hid)
      rw [Operation.calls_fetch_of_not_mem hlarge, Operation.calls_fetch_of_not_mem hsmall,
        h.table]

end Errand

namespace Stack

variable {small large : Stack}

theorem nested_run (h : small.backends.Nested large.backends) (errands : List Errand) :
    (small.run errands).backends.Nested (large.run errands).backends := by
  induction errands generalizing small large with
  | nil => exact h
  | cons errand rest ih => exact ih (errand.nested_behind h)

theorem storeCalls_sublist (h : small.backends.Nested large.backends) (errands : List Errand) :
    (large.storeCalls errands).Sublist (small.storeCalls errands) := by
  induction errands generalizing small large with
  | nil => exact List.Sublist.refl _
  | cons errand rest ih =>
    exact (errand.storeCalls_sublist h).append (ih (errand.nested_behind h))

/-- **A larger cache never causes more store calls.** The same errands are run one after another on
the same rows, with an empty cache of some capacity and with one of at least this capacity, and
nothing fails. Behind them, what the small cache holds is in the large one; whatever comes next is
answered by the large cache if it is by the small one; and what the store was asked with the large
one, it was also asked with the small one. -/
theorem larger_cache_reads_less {room room' : Nat} (hroom : 1 ≤ room) (hle : room ≤ room')
    (table : Table) (errands : List Errand) :
    (∀ id, ((cold table room).run errands).backends.cache.contains id = true →
      ((cold table room').run errands).backends.cache.contains id = true) ∧
    (∀ next : Errand, next.FromCache ((cold table room).run errands) →
      next.FromCache ((cold table room').run errands)) ∧
    ((cold table room').storeCalls errands).Sublist ((cold table room).storeCalls errands) := by
  have hempty : (cold table room).backends.Nested (cold table room').backends := by
    refine ⟨rfl, hroom, ⟨List.Sublist.refl _, List.nodup_nil, Nat.zero_le _, Nat.zero_le _, ?_⟩⟩
    show 0 + room ≤ 0 + room'
    omega
  have hkeys := (nested_run hempty errands).keys.sublist.subset
  refine ⟨fun id hid => ?_, fun next hnext => ?_, storeCalls_sublist hempty errands⟩
  · exact Cache.contains_iff.2 (hkeys (Cache.contains_iff.1 hid))
  · obtain ⟨id, hfetch, hid⟩ := Errand.fromCache_iff.1 hnext
    exact Errand.fromCache_iff.2 ⟨id, hfetch, hkeys hid⟩

/-- Two products are created, and then both are fetched. -/
def teaErrands : List Errand :=
  [⟨"a", .create ⟨"tea", "green"⟩, 1⟩, ⟨"b", .create ⟨"tea", "white"⟩, 2⟩, ⟨"c", .fetch 1, 0⟩,
    ⟨"d", .fetch 2, 0⟩]

/-- With room for one product each fetch asks the store, with room for two none does. -/
theorem larger_cache_reads_less_two_teas :
    1 ≤ 1 ∧ 1 ≤ 2 ∧
      (cold .empty 1).storeCalls teaErrands =
        [.insert ⟨"tea", "green"⟩, .insert ⟨"tea", "white"⟩, .find 1, .find 2] ∧
      (cold .empty 2).storeCalls teaErrands =
        [.insert ⟨"tea", "green"⟩, .insert ⟨"tea", "white"⟩] ∧
      ((cold .empty 2).storeCalls teaErrands).Sublist ((cold .empty 1).storeCalls teaErrands) ∧
      ((cold .empty 1).run teaErrands).backends.cache.keys = [2] ∧
      ((cold .empty 2).run teaErrands).backends.cache.contains 2 = true ∧
      Errand.FromCache ⟨"e", .fetch 2, 0⟩ ((cold .empty 2).run teaErrands) := by
  have hall := larger_cache_reads_less (by decide : 1 ≤ 1) (by decide : 1 ≤ 2) .empty teaErrands
  obtain ⟨hresidents, hanswers, hcalls⟩ := hall
  have hkeys : ((cold .empty 1).run teaErrands).backends.cache.keys = [2] := rfl
  have hmem : 2 ∈ ((cold .empty 1).run teaErrands).backends.cache.keys := by
    rw [hkeys]
    exact List.mem_singleton.2 rfl
  refine ⟨by decide, by decide, rfl, rfl, hcalls, hkeys, ?_, ?_⟩
  · exact hresidents 2 (Cache.contains_iff.2 hmem)
  · exact hanswers _ (Errand.fromCache_iff.2 ⟨2, rfl, hmem⟩)

end Stack

end Catalogue
