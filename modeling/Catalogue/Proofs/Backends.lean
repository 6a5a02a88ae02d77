import Catalogue.Proofs.Residents
import Catalogue.Proofs.Table
import Catalogue.Proofs.Warrant

/-!
# Both backends

The rows of the store and the entries of the cache, and what a call does to them when both are
healthy (`Backends.Serves`). The cache is *coherent* with the store if every entry is the text of
the row under its identifier. A call keeps this if it is *ready*: a text that is put into the cache
is that of the row in the store, and the text of a row that is changed is not in the cache, unless
it stays the same. Four facts about one identifier are all that is needed later on:

* `coherentAt_of_serves`: a ready call keeps the cache coherent;
* `readyAt_of_warrants`: a call that is warranted by the one right before it is ready behind it;
* `readyAt_of_fails`: nothing that is warranted by a failed call, or by none, can do harm;
* `ReadyAt.of_serves`: a call stays ready while others act, unless the two clash: one puts a
  product into the cache that the other changes.
-/

namespace Catalogue

/-- Whether a call changes the row under an identifier, when there is one. -/
def Call.Changes (id : Int64) : Call → Prop
  | .store call => call.Changes id
  | .cache _ => False

theorem Call.changes_cases {id : Int64} {call : Call} (h : call.Changes id) :
    (∃ draft, call = .store (.update id draft)) ∨ call = .store (.delete id) ∨
      call = .store .purge := by
  cases call with
  | cache call => exact False.elim h
  | store call =>
    rcases StoreCall.changes_cases h with ⟨draft, rfl⟩ | rfl | rfl
    · exact Or.inl ⟨draft, rfl⟩
    · exact Or.inr (Or.inl rfl)
    · exact Or.inr (Or.inr rfl)

/-- Whether a call gives the row under an identifier a certain text, when there is one. -/
def Call.Writes (id : Int64) (text : String) (call : Call) : Prop :=
  ∃ draft, call = .store (.update id draft) ∧ (draft.withId id).encode = text

/-- Two calls that leave a wrong text behind if both are made, in whichever order. -/
def Call.Clashes (id : Int64) (refill change : Call) : Prop :=
  ∃ product, refill = .cache (.set product) ∧ product.id = id ∧ change.Changes id ∧
    ¬ change.Writes id product.encode

/-- The answer says that a call failed, and not because a product is missing. -/
def Fails : (call : Call) → call.Answer → Prop
  | .cache _, answer => ∃ message, answer = .error (.internal message)
  | .store _, answer =>
    answer = .error .timeout ∨ ∃ message, answer = .error (.persistence message)

/-- The rows of the store, and the cache. -/
structure Backends where
  table : Table
  cache : Cache

namespace Backends

/-- What a call may be answered by healthy backends, and how it leaves them. -/
def Serves (s : Backends) : (call : Call) → call.Answer → Backends → Prop
  | .store call, answer, after => s.table.Serves call answer after.table ∧ after.cache = s.cache
  | .cache call, answer, after =>
    s.cache.answer call = (answer, after.cache) ∧ after.table = s.table

/-- What a call may be answered by a map and a cache, and how it leaves them. -/
def Takes (s : Backends) : (call : Call) → call.Answer → Backends → Prop
  | .store call, answer, after => s.table.Takes call answer after.table ∧ after.cache = s.cache
  | .cache call, answer, after =>
    s.cache.answer call = (answer, after.cache) ∧ after.table = s.table

/-- What healthy backends answer to a call when a new row gets the identifier `fresh`. -/
def act (fresh : Int64) (s : Backends) : (call : Call) → call.Answer × Backends
  | .store call => ((s.table.answer fresh call).1, ⟨(s.table.answer fresh call).2, s.cache⟩)
  | .cache call => ((s.cache.answer call).1, ⟨s.table, (s.cache.answer call).2⟩)

/-- **Coherence at one identifier**: what is cached there is the text of the row there. -/
def CoherentAt (s : Backends) (id : Int64) : Prop :=
  ∀ text, (id, text) ∈ s.cache.entries →
    ∃ row, s.table.row? id = some row ∧ text = row.encode

/-- **Coherence**: every entry is the text of the row under its identifier. -/
def Coherent (s : Backends) : Prop :=
  ∀ entry ∈ s.cache.entries, ∃ row, s.table.row? entry.1 = some row ∧ entry.2 = row.encode

/-- A call that does no harm to coherence at an identifier. -/
structure ReadyAt (s : Backends) (id : Int64) (call : Call) : Prop where
  refill : ∀ product, call = .cache (.set product) → product.id = id →
    ∃ row, s.table.row? id = some row ∧ product.encode = row.encode
  change : call.Changes id → ∀ text, (id, text) ∈ s.cache.entries → call.Writes id text

variable {s after : Backends} {id : Int64} {call mine : Call} {answer : call.Answer}

theorem coherent_iff : s.Coherent ↔ ∀ id, s.CoherentAt id :=
  ⟨fun h id text hm => h (id, text) hm, fun h entry hm => h entry.1 entry.2 hm⟩

theorem coherent_empty (table : Table) (capacity : Nat) :
    (Backends.mk table (Cache.empty capacity)).Coherent := by
  intro entry h
  cases h

/-- With a free identifier for new rows, the call is served. -/
theorem serves_act {fresh : Int64} (s : Backends) (call : Call)
    (hfresh : ∀ draft, call = .store (.insert draft) → s.table.row? fresh = none) :
    s.Serves call (s.act fresh call).1 (s.act fresh call).2 := by
  cases call with
  | cache call => exact ⟨rfl, rfl⟩
  | store call =>
    have hinsert := fun draft h => hfresh draft (congrArg Call.store h)
    exact ⟨Table.serves_answer fresh _ call hinsert, rfl⟩

/-- Only a call that inserts a row takes notice of its identifier. -/
theorem act_eq_act {fresh fresh' : Int64} (s : Backends) (call : Call)
    (h : ∀ draft, call = .store (.insert draft) → fresh = fresh') :
    s.act fresh call = s.act fresh' call := by
  cases call with
  | cache call => rfl
  | store call =>
    cases call with
    | insert draft => rw [h draft rfl]
    | find id | list | page window | update id draft | delete id | purge | ping => rfl

/-- A row that is there stays unless the call changes it. -/
theorem Serves.row?_eq {row : Product} (h : s.Serves call answer after)
    (hrow : s.table.row? id = some row) (hcall : ¬ call.Changes id) :
    after.table.row? id = some row := by
  cases call with
  | store call => exact h.1.row?_eq hrow hcall
  | cache call => exact h.2 ▸ hrow

/-- A row that is there has the text that a call writes. -/
theorem Serves.row?_of_writes {row : Product} {text : String} (h : s.Serves call answer after)
    (hrow : s.table.row? id = some row) (hcall : call.Writes id text) :
    ∃ now, after.table.row? id = some now ∧ text = now.encode := by
  obtain ⟨draft, rfl, rfl⟩ := hcall
  obtain ⟨⟨-, htable⟩, -⟩ := h
  refine ⟨draft.withId id, ?_, rfl⟩
  rw [htable, Table.row?_replace]
  simp [Draft.withId, hrow]

/-- The text of a row that is found behind a change of it was written by the change. -/
theorem Serves.writes_of_changes {row : Product} (h : s.Serves call answer after)
    (hcall : call.Changes id) (hrow : after.table.row? id = some row) :
    call.Writes id row.encode := by
  cases call with
  | cache call => exact False.elim hcall
  | store call =>
    obtain ⟨draft, rfl, rfl⟩ := h.1.row?_of_changes hcall hrow
    exact ⟨draft, rfl, rfl⟩

theorem Serves.takes (h : s.Serves call answer after) : s.Takes call answer after := by
  cases call with
  | store call => exact ⟨h.1.takes, h.2⟩
  | cache call => exact h

/-- An entry behind a call was there before unless the call put it in. -/
theorem Takes.mem_entries {entry : Int64 × String} (h : s.Takes call answer after)
    (hm : entry ∈ after.cache.entries) :
    entry ∈ s.cache.entries ∨
      ∃ product, call = .cache (.set product) ∧ entry = (product.id, product.encode) := by
  cases call with
  | store call => exact Or.inl (h.2 ▸ hm)
  | cache call =>
    have hcache : (s.cache.answer call).2 = after.cache := congrArg Prod.snd h.1
    rcases Cache.mem_answer (hcache ▸ hm) with hm | ⟨product, rfl, he⟩
    · exact Or.inl hm
    · exact Or.inr ⟨product, rfl, he⟩

theorem Serves.mem_entries {entry : Int64 × String} (h : s.Serves call answer after)
    (hm : entry ∈ after.cache.entries) :
    entry ∈ s.cache.entries ∨
      ∃ product, call = .cache (.set product) ∧ entry = (product.id, product.encode) :=
  h.takes.mem_entries hm

/-- A ready call keeps the cache coherent. -/
theorem coherentAt_of_serves (hs : s.CoherentAt id) (hready : s.ReadyAt id call)
    (h : s.Serves call answer after) : after.CoherentAt id := by
  intro text hm
  rcases h.mem_entries hm with hold | ⟨product, rfl, he⟩
  · obtain ⟨row, hrow, htext⟩ := hs text hold
    by_cases hc : call.Changes id
    · exact h.row?_of_writes hrow (hready.change hc text hold)
    · exact ⟨row, h.row?_eq hrow hc, htext⟩
  · cases he
    obtain ⟨row, hrow, htext⟩ := hready.refill product rfl rfl
    exact ⟨row, h.row?_eq hrow fun hc => hc, htext⟩

/-- Behind the call that warrants it, a call is ready. -/
theorem readyAt_of_warrants {next : Call} (id : Int64) (h : s.Serves call answer after)
    (hnext : Warrants (some ⟨call, answer⟩) next) : after.ReadyAt id next := by
  constructor
  · rintro product rfl rfl
    refine ⟨product, ?_, rfl⟩
    rcases hnext with ⟨k, hk⟩ | ⟨draft, k, hk, rfl⟩
    · cases hk
      have hrow := Table.find_eq_ok_iff.1 h.1.1.symm
      rw [h.1.2, Table.id_of_row? hrow]
      exact hrow
    · cases hk
      obtain ⟨⟨fresh, -, hid, htable⟩, -⟩ := h
      cases hid
      rw [htable]
      simp [Draft.withId]
  · -- the text was dropped right before, so there is none to be kept
    have hdrops : Drops id (some ⟨call, answer⟩) → after.cache.Absent id := by
      intro hdrops
      obtain ⟨dropped, hk⟩ := hdrops.exists_answer
      cases hk
      have hcache : (s.cache.delete id).2 = after.cache := congrArg Prod.snd h.1
      exact hcache ▸ Cache.absent_delete s.cache id
    intro hchange text hm
    rcases Call.changes_cases hchange with ⟨draft, rfl⟩ | rfl | rfl
    · exact absurd rfl (hdrops hnext _ hm)
    · exact absurd rfl (hdrops hnext _ hm)
    · cases hnext
      have hcache : s.cache.clear = after.cache := congrArg Prod.snd h.1
      exact absurd rfl ((hcache ▸ Cache.absent_clear s.cache id) _ hm)

/-- At the beginning, and behind a failed call, whatever is warranted is ready. -/
theorem readyAt_of_fails {before : Option Answered} {next : Call} (s : Backends) (id : Int64)
    (hfail : ∀ last, before = some last → Fails last.call last.answer)
    (h : Warrants before next) : s.ReadyAt id next := by
  -- that a text was dropped is not among the failures
  have hdrops : ¬ Drops id before := by
    rintro (hk | ⟨missing, hk⟩)
    · have := hfail _ hk
      simp [Fails] at this
    · have := hfail _ hk
      simp [Fails] at this
  constructor
  · rintro product rfl -
    rcases h with ⟨k, hk⟩ | ⟨draft, k, hk, -⟩
    · have := hfail _ hk
      simp [Fails] at this
    · have := hfail _ hk
      simp [Fails] at this
  · intro hchange
    rcases Call.changes_cases hchange with ⟨draft, rfl⟩ | rfl | rfl
    · exact absurd h hdrops
    · exact absurd h hdrops
    · have := hfail _ h
      simp [Fails] at this

/-- A call stays ready while others act, unless the two clash. -/
theorem ReadyAt.of_serves (hmine : s.ReadyAt id mine) (h : s.Serves call answer after)
    (hrefill : ¬ mine.Clashes id call) (hchange : ¬ call.Clashes id mine) :
    after.ReadyAt id mine := by
  constructor
  · rintro product rfl hid
    obtain ⟨row, hrow, htext⟩ := hmine.refill product rfl hid
    by_cases hc : call.Changes id
    · have hwrites : call.Writes id product.encode := by
        by_contra hw
        exact hrefill ⟨product, rfl, hid, hc, hw⟩
      exact h.row?_of_writes hrow hwrites
    · exact ⟨row, h.row?_eq hrow hc, htext⟩
  · intro hc text hm
    rcases h.mem_entries hm with hold | ⟨product, rfl, he⟩
    · exact hmine.change hc text hold
    · cases he
      by_contra hw
      exact hchange ⟨product, rfl, rfl, hc, hw⟩

end Backends

end Catalogue
