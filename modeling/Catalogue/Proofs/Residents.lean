import Catalogue.Backend
import Catalogue.Cache
import Mathlib.Tactic.Common

/-!
# What the cache holds

Which entries are in the cache behind a call, seen as a set. Looking a product up and setting one
bring in nothing but the product that is set, and a product that was dropped is not there any more.
Entries may always leave, since a full cache makes room.
-/

namespace Catalogue.Cache

/-- What the cache answers to a call, and the cache behind it. -/
def answer (cache : Cache) : (call : CacheCall) → Except CacheError call.Value × Cache
  | .get id => cache.get id
  | .set product => (.ok (), (cache.set product).2)
  | .delete id => cache.delete id
  | .clear => (.ok (), cache.clear)

/-- Nothing is cached under an identifier. -/
def Absent (cache : Cache) (id : Int64) : Prop := ∀ entry ∈ cache.entries, entry.1 ≠ id

variable {cache : Cache} {id : Int64} {text : String} {entry : Int64 × String}

theorem mem_of_peek? (h : cache.peek? id = some text) : (id, text) ∈ cache.entries := by
  obtain ⟨front, back, heq, -⟩ := List.lookup_eq_some_iff.1 h
  rw [heq]
  exact List.mem_append_right _ (List.mem_cons_self ..)

theorem peek?_eq_none_iff : cache.peek? id = none ↔ cache.Absent id := by
  unfold peek? Absent
  rw [List.lookup_eq_none_iff]
  refine forall₂_congr fun entry _ => ?_
  rw [bne_iff_ne]
  exact ne_comm

theorem get_eq_ok_iff : (cache.get id).1 = .ok text ↔ cache.peek? id = some text := by
  unfold get
  cases cache.peek? id <;> simp

theorem mem_of_get (h : (cache.get id).1 = .ok text) : (id, text) ∈ cache.entries :=
  mem_of_peek? (get_eq_ok_iff.1 h)

theorem contains_eq_false_iff : cache.contains id = false ↔ cache.Absent id := by
  rw [← peek?_eq_none_iff]
  simp [contains]

/-! ### The entries behind a call -/

theorem mem_others : entry ∈ cache.others id ↔ entry ∈ cache.entries ∧ entry.1 ≠ id := by
  simp [others]

/-- Looking a product up brings nothing in. -/
theorem mem_get (h : entry ∈ (cache.get id).2.entries) : entry ∈ cache.entries := by
  unfold get at h
  split at h
  · rename_i text hp
    rcases List.mem_cons.1 h with rfl | h
    · exact mem_of_peek? hp
    · exact (mem_others.1 h).1
  · exact h

/-- What is put in front is in front, and of what was there some is behind it. -/
theorem exists_entries_push (cache : Cache) (id : Int64) (text : String) :
    ∃ kept, (cache.push id text).2.entries = (id, text) :: kept ∧ kept.Sublist cache.entries := by
  unfold push
  split
  · exact ⟨_, rfl, List.filter_sublist⟩
  · split
    · exact ⟨_, rfl, List.Sublist.refl _⟩
    · exact ⟨_, rfl, List.dropLast_sublist _⟩

/-- What is handed back was there. -/
theorem mem_of_push (h : (cache.push id text).1 = some entry) : entry ∈ cache.entries := by
  unfold push at h
  split at h
  · rename_i hold
    cases h
    exact mem_of_peek? hold
  · split at h
    · cases h
    · exact List.mem_of_getLast? h

/-- Whether an eviction is counted does not bear on the entries. -/
theorem entries_set (cache : Cache) (product : Product) :
    (cache.set product).2.entries = (cache.push product.id product.encode).2.entries := by
  unfold set
  dsimp only
  split
  · split <;> rfl
  · rfl

/-- Nothing but the entries changes when a text is put in front. -/
theorem frame_push (cache : Cache) (id : Int64) (text : String) :
    (cache.push id text).2 = { cache with entries := (cache.push id text).2.entries } := by
  unfold push
  split
  · rfl
  · split <;> rfl

/-- Setting a product is no look-up, and the room stays what it is. -/
theorem frame_set (cache : Cache) (product : Product) :
    (cache.set product).2.capacity = cache.capacity ∧ (cache.set product).2.hits = cache.hits ∧
      (cache.set product).2.misses = cache.misses := by
  have hpush := cache.frame_push product.id product.encode
  unfold set
  dsimp only
  split
  · split <;> (rw [hpush]; exact ⟨rfl, rfl, rfl⟩)
  · rw [hpush]
    exact ⟨rfl, rfl, rfl⟩

theorem exists_entries_set (cache : Cache) (product : Product) :
    ∃ kept, (cache.set product).2.entries = (product.id, product.encode) :: kept ∧
      kept.Sublist cache.entries := by
  rw [entries_set]
  exact exists_entries_push cache product.id product.encode

/-- Setting a product brings in its text and nothing else. -/
theorem mem_set {product : Product} (h : entry ∈ (cache.set product).2.entries) :
    entry = (product.id, product.encode) ∨ entry ∈ cache.entries := by
  obtain ⟨kept, hentries, hkept⟩ := cache.exists_entries_set product
  rw [hentries] at h
  exact (List.mem_cons.1 h).imp_right fun h => hkept.subset h

/-- The text of a product that was set is there, however little room there is. -/
theorem mem_set_self (cache : Cache) (product : Product) :
    (product.id, product.encode) ∈ (cache.set product).2.entries := by
  obtain ⟨kept, hentries, -⟩ := cache.exists_entries_set product
  rw [hentries]
  exact List.mem_cons_self ..

/-- Behind a deletion everything else is left as it was, and the product is gone. -/
theorem mem_delete (h : entry ∈ (cache.delete id).2.entries) :
    entry ∈ cache.entries ∧ entry.1 ≠ id := by
  unfold delete at h
  split at h
  · exact mem_others.1 h
  · rename_i hc
    exact ⟨h, contains_eq_false_iff.1 (by simpa using hc) entry h⟩

theorem absent_delete (cache : Cache) (id : Int64) : (cache.delete id).2.Absent id :=
  fun _ h => (mem_delete h).2

theorem absent_clear (cache : Cache) (id : Int64) : cache.clear.Absent id := fun _ h => nomatch h

/-- An entry behind a call was there before, or it is the text of the product that the call set. -/
theorem mem_answer {call : CacheCall} (h : entry ∈ (cache.answer call).2.entries) :
    entry ∈ cache.entries ∨
      ∃ product, call = .set product ∧ entry = (product.id, product.encode) := by
  cases call with
  | get id => exact Or.inl (mem_get h)
  | set product => exact (mem_set h).symm.imp_right fun h => ⟨product, rfl, h⟩
  | delete id => exact Or.inl (mem_delete h).1
  | clear => cases h

end Catalogue.Cache
