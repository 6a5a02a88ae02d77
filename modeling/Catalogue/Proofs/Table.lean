import Catalogue.MemoryStore
import Mathlib.Tactic.Common

/-!
# Rows as a map

A *table* holds the rows of a store: each identifier once, in ascending order. What it says of an
identifier is `Table.row?`, and every change is described by what it does to that view (`row?_put`,
`row?_remove`, `row?_replace`). `Table.answer` is what a store with these rows answers when a new
row gets a given identifier; `Table.Serves` asks less of a store, namely only that its calls act on
a map and that new rows get identifiers that are free.
-/

namespace Catalogue

open MemoryStore

/-! ### Rows in order -/

theorem mem_insertRow {row other : Product} {rows : List Product}
    (h : other ∈ insertRow row rows) : other = row ∨ other ∈ rows := by
  induction rows with
  | nil => exact Or.inl (List.mem_singleton.1 h)
  | cons first rest ih =>
    unfold insertRow at h
    split_ifs at h
    · simpa using h
    · rcases List.mem_cons.1 h with rfl | h
      · exact Or.inl rfl
      · exact Or.inr (List.mem_cons_of_mem _ h)
    · rcases List.mem_cons.1 h with rfl | h
      · exact Or.inr (List.mem_cons_self ..)
      · exact (ih h).imp_right (List.mem_cons_of_mem _)

theorem pairwise_insertRow {row : Product} {rows : List Product}
    (h : rows.Pairwise fun a b => a.id < b.id) :
    (insertRow row rows).Pairwise fun a b => a.id < b.id := by
  induction rows with
  | nil => simp [insertRow]
  | cons first rest ih =>
    obtain ⟨hfirst, hrest⟩ := List.pairwise_cons.1 h
    unfold insertRow
    split_ifs with hlt heq
    · refine List.pairwise_cons.2 ⟨fun other ho => ?_, h⟩
      rcases List.mem_cons.1 ho with rfl | ho
      · exact hlt
      · exact Int64.lt_trans hlt (hfirst other ho)
    · exact List.pairwise_cons.2 ⟨fun other ho => heq ▸ hfirst other ho, hrest⟩
    · refine List.pairwise_cons.2 ⟨fun other ho => ?_, ih hrest⟩
      rcases mem_insertRow ho with rfl | ho
      · grind
      · exact hfirst other ho

/-- Putting a row in its place changes what is found under its identifier, and nothing else. -/
theorem find?_insertRow (row : Product) (rows : List Product) (id : Int64) :
    (insertRow row rows).find? (fun r => r.id == id) =
      if id = row.id then some row else rows.find? fun r => r.id == id := by
  induction rows with
  | nil =>
    by_cases h : id = row.id
    · simp [insertRow, h]
    · simp [insertRow, h, Ne.symm h]
  | cons first rest ih =>
    unfold insertRow
    by_cases hid : id = row.id
    · subst hid
      rw [if_pos rfl] at ih ⊢
      split_ifs with hlt heq
      · simp
      · simp
      · rw [List.find?_cons_of_neg (by simpa using Ne.symm heq), ih]
    · have hne : row.id ≠ id := Ne.symm hid
      rw [if_neg hid] at ih ⊢
      split_ifs with hlt heq
      · simp [hne]
      · simp [hne, show first.id ≠ id from heq ▸ hne]
      · rw [List.find?_cons, List.find?_cons, ih]

/-- Whether a call changes the row under an identifier, when there is one. -/
def StoreCall.Changes (id : Int64) : StoreCall → Prop
  | .update k _ | .delete k => k = id
  | .purge => True
  | _ => False

theorem StoreCall.changes_cases {id : Int64} {call : StoreCall} (h : call.Changes id) :
    (∃ draft, call = .update id draft) ∨ call = .delete id ∨ call = .purge := by
  cases call with
  | update k draft =>
    obtain rfl : k = id := h
    exact Or.inl ⟨draft, rfl⟩
  | delete k =>
    obtain rfl : k = id := h
    exact Or.inr (Or.inl rfl)
  | purge => exact Or.inr (Or.inr rfl)
  | find k => exact False.elim h
  | list => exact False.elim h
  | page window => exact False.elim h
  | insert draft => exact False.elim h
  | ping => exact False.elim h

/-! ### Tables -/

/-- Rows in ascending order of their identifiers. -/
structure Table where
  rows : List Product
  ascending : rows.Pairwise fun a b => a.id < b.id
  deriving DecidableEq

namespace Table

/-- The table without rows. -/
def empty : Table := ⟨[], List.Pairwise.nil⟩

/-- The row under an identifier. -/
def row? (table : Table) (id : Int64) : Option Product := table.rows.find? fun row => row.id == id

/-- The row under an identifier, or that it is missing. -/
def find (table : Table) (id : Int64) : Except StoreError Product :=
  match table.row? id with
  | some row => .ok row
  | none => .error (.notFound id)

/-- The table with a row put into it. -/
def put (table : Table) (row : Product) : Table :=
  ⟨insertRow row table.rows, pairwise_insertRow table.ascending⟩

/-- The table with a row put in the place of the row under its identifier, if there is one. -/
def replace (table : Table) (row : Product) : Table :=
  match table.row? row.id with
  | some _ => table.put row
  | none => table

/-- The table without the row under an identifier. -/
def remove (table : Table) (id : Int64) : Table :=
  ⟨table.rows.filter fun row => row.id != id, table.ascending.sublist List.filter_sublist⟩

variable (table : Table) (id k : Int64) (row : Product)

/-- A row is found under its own identifier only. -/
theorem id_of_row? {table : Table} {id : Int64} {row : Product} (h : table.row? id = some row) :
    row.id = id := by
  simpa using List.find?_some h

@[simp] theorem row?_put : (table.put row).row? k = if k = row.id then some row else table.row? k :=
  find?_insertRow row table.rows k

@[simp] theorem row?_remove : (table.remove id).row? k = if k = id then none else table.row? k := by
  unfold remove row?
  rw [List.find?_filter]
  split_ifs with h
  · subst h
    simp
  · congr 1
    funext r
    by_cases hr : r.id = k <;> simp [hr, h]

theorem row?_replace :
    (table.replace row).row? k =
      if k = row.id ∧ (table.row? k).isSome then some row else table.row? k := by
  unfold replace
  by_cases hk : k = row.id
  · subst hk
    cases h : table.row? row.id <;> simp [h]
  · cases h : table.row? row.id <;> simp [hk]

theorem find_eq_ok_iff {table : Table} {id : Int64} {row : Product} :
    table.find id = .ok row ↔ table.row? id = some row := by
  unfold find
  cases table.row? id <;> simp

/-! ### Answering calls -/

/-- The answer to a call, and the rows behind it, when a new row gets the identifier `fresh`. -/
def answer (fresh : Int64) (table : Table) :
    (call : StoreCall) → Except StoreError call.Value × Table
  | .find id => (table.find id, table)
  | .list => (.ok table.rows, table)
  | .page window => (.ok (window.slice table.rows), table)
  | .insert draft => (.ok fresh, table.put (draft.withId fresh))
  | .update id draft => (table.find id, table.replace (draft.withId id))
  | .delete id => (table.find id, table.remove id)
  | .purge => (.ok table.rows.length, empty)
  | .ping => (.ok (), table)

/-- **What a store may do that behaves as a map**: a new row gets an identifier that is free. What
is answered to a listing is left open. -/
def Serves (table : Table) : (call : StoreCall) → Except StoreError call.Value → Table → Prop
  | .find id, answer, after => answer = table.find id ∧ after = table
  | .list, _, after => after = table
  | .page _, _, after => after = table
  | .insert draft, answer, after =>
    ∃ id, table.row? id = none ∧ answer = .ok id ∧ after = table.put (draft.withId id)
  | .update id draft, answer, after =>
    answer = table.find id ∧ after = table.replace (draft.withId id)
  | .delete id, answer, after => answer = table.find id ∧ after = table.remove id
  | .purge, _, after => after = empty
  | .ping, _, after => after = table

/-- What a store may do that behaves as a map, even if it gives a new row the identifier of another.
-/
def Takes (table : Table) :
    (call : StoreCall) → Except StoreError call.Value → Table → Prop
  | .insert draft, answer, after => ∃ id, answer = .ok id ∧ after = table.put (draft.withId id)
  | call, answer, after => table.Serves call answer after

theorem Serves.takes {table after : Table} {call : StoreCall}
    {answer : Except StoreError call.Value} (h : table.Serves call answer after) :
    table.Takes call answer after := by
  cases call with
  | insert draft =>
    obtain ⟨id, -, hanswer, hafter⟩ := h
    exact ⟨id, hanswer, hafter⟩
  | find id | list | page window | update id draft | delete id | purge | ping => exact h

/-- A row that is there stays as it is unless the call is about its identifier or about all rows. -/
theorem Serves.row?_eq {table after : Table} {call : StoreCall}
    {answer : Except StoreError call.Value} {id : Int64} {row : Product}
    (h : table.Serves call answer after)
    (hrow : table.row? id = some row) (hcall : ¬ call.Changes id) : after.row? id = some row := by
  cases call with
  | insert draft =>
    obtain ⟨fresh, hfresh, -, rfl⟩ := h
    have hne : id ≠ fresh := by
      rintro rfl
      cases hfresh.symm.trans hrow
    simp [Draft.withId, hne, hrow]
  | update k draft =>
    have hne : id ≠ k := fun h => hcall h.symm
    obtain ⟨-, rfl⟩ := h
    simp [row?_replace, Draft.withId, hne, hrow]
  | delete k =>
    have hne : id ≠ k := fun h => hcall h.symm
    obtain ⟨-, rfl⟩ := h
    simp [hne, hrow]
  | purge => exact absurd trivial hcall
  | find k => exact h.2 ▸ hrow
  | list => exact (show after = table from h) ▸ hrow
  | page window => exact (show after = table from h) ▸ hrow
  | ping => exact (show after = table from h) ▸ hrow

/-- What is found under an identifier behind a change of the row there is what the change wrote. -/
theorem Serves.row?_of_changes {table after : Table} {call : StoreCall}
    {answer : Except StoreError call.Value} {id : Int64} {row : Product}
    (h : table.Serves call answer after) (hcall : call.Changes id)
    (hrow : after.row? id = some row) :
    ∃ draft, call = .update id draft ∧ row = draft.withId id := by
  rcases StoreCall.changes_cases hcall with ⟨draft, rfl⟩ | rfl | rfl
  · obtain ⟨-, rfl⟩ := h
    refine ⟨draft, rfl, ?_⟩
    rw [row?_replace] at hrow
    split_ifs at hrow with hsome
    · exact (Option.some.inj hrow).symm
    · exact absurd ⟨rfl, by rw [hrow]; rfl⟩ hsome
  · obtain ⟨-, rfl⟩ := h
    simp at hrow
  · obtain rfl : after = empty := h
    cases hrow

theorem row?_of_find_error {table : Table} {id : Int64} {e : StoreError}
    (h : table.find id = .error e) : table.row? id = none := by
  unfold find at h
  cases hrow : table.row? id with
  | none => rfl
  | some row =>
    rw [hrow] at h
    cases h

/-- A call that fails leaves the rows as they are. -/
theorem answer_of_error {table : Table} {fresh : Int64} {call : StoreCall} {e : StoreError}
    (h : (table.answer fresh call).1 = .error e) : (table.answer fresh call).2 = table := by
  cases call with
  | find id | list | page window | ping => rfl
  | insert draft | purge => cases h
  | update id draft =>
    have hrow : table.row? id = none := row?_of_find_error h
    show table.replace (draft.withId id) = table
    unfold replace
    rw [show table.row? (draft.withId id).id = none from hrow]
  | delete id =>
    have hrow : table.row? id = none := row?_of_find_error h
    have hother : ∀ row ∈ table.rows, row.id ≠ id := by
      simpa [row?] using hrow
    have hrows : table.rows.filter (fun row => row.id != id) = table.rows := by
      rw [List.filter_eq_self]
      intro row hmem
      simpa using hother row hmem
    exact (Table.mk.injEq ..).mpr hrows

/-- With a free identifier for new rows the rows are served as a map. -/
theorem serves_answer (fresh : Int64) (table : Table) (call : StoreCall)
    (h : ∀ draft, call = .insert draft → table.row? fresh = none) :
    table.Serves call (table.answer fresh call).1 (table.answer fresh call).2 := by
  cases call with
  | insert draft => exact ⟨fresh, h draft rfl, rfl, rfl⟩
  | find id => exact ⟨rfl, rfl⟩
  | update id draft => exact ⟨rfl, rfl⟩
  | delete id => exact ⟨rfl, rfl⟩
  | list => rfl
  | page window => rfl
  | purge => rfl
  | ping => rfl

end Table

/-- A store in memory whose rows are in order answers as its table does. -/
theorem MemoryStore.answer_eq (store : MemoryStore)
    (h : store.rows.Pairwise fun a b => a.id < b.id) (call : StoreCall) :
    (store.answer call).1 = ((Table.mk store.rows h).answer (store.lastId + 1) call).1 ∧
      (store.answer call).2.rows =
        ((Table.mk store.rows h).answer (store.lastId + 1) call).2.rows := by
  cases call with
  | update id draft =>
    have hrow : (Table.mk store.rows h).row? id = store.row? id := rfl
    simp only [MemoryStore.answer, Table.answer, Table.find, Table.replace, Draft.withId, hrow]
    cases store.row? id <;> exact ⟨rfl, rfl⟩
  | delete id =>
    have hrow : (Table.mk store.rows h).row? id = store.row? id := rfl
    simp only [MemoryStore.answer, Table.answer, Table.find, hrow]
    cases hid : store.row? id with
    | some row => exact ⟨rfl, rfl⟩
    | none =>
      refine ⟨rfl, (List.filter_eq_self.2 fun row hr => ?_).symm⟩
      have := List.find?_eq_none.1 hid row hr
      simpa using this
  | find id => exact ⟨rfl, rfl⟩
  | list => exact ⟨rfl, rfl⟩
  | page window => exact ⟨rfl, rfl⟩
  | insert draft => exact ⟨rfl, rfl⟩
  | purge => exact ⟨rfl, rfl⟩
  | ping => exact ⟨rfl, rfl⟩

end Catalogue
