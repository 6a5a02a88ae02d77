import Catalogue.Window
import Mathlib.Algebra.Group.Int.Defs
import Mathlib.Data.Int.Basic
import Mathlib.Tactic.Common

/-!
# Walking the pages of a list

Whoever asks for one page after the other, up to the first that is shorter than the limit, has seen
the whole list once, in order (`Window.walk_visits_once`). A page is what lies in the window behind
as many full pages as its number says. Page by page the pages put together are a front of the list
(`Window.flatten_chunks`), and the first short page is the one in which the list ends.
-/

namespace Catalogue.Window

variable {α : Type}

/-- The page of a list with some number, counted from zero. -/
def page (limit : Int64) (items : List α) (number : Nat) : Except WindowFlaw (List α) :=
  (Window.of limit (Int64.ofInt (number * limit.toInt))).map fun window => window.slice items

/-- The elements behind the first `number` pieces of a size, as many as make up one more. -/
def chunk (size : Nat) (items : List α) (number : Nat) : List α :=
  (items.drop (number * size)).take size

/-! ### Pieces of a list -/

/-- **Pieces put together are a front of the list.** -/
theorem flatten_chunks (size : Nat) (items : List α) (count : Nat) :
    ((List.range count).map (chunk size items)).flatten = items.take (count * size) := by
  induction count with
  | zero => rw [Nat.zero_mul, List.take_zero]; rfl
  | succ count ih =>
    rw [List.range_succ, List.map_append, List.flatten_append, ih, Nat.succ_mul, List.take_add]
    simp [chunk]

theorem length_chunk (size : Nat) (items : List α) (number : Nat) :
    (chunk size items number).length = min size (items.length - number * size) := by
  unfold chunk
  rw [List.length_take, List.length_drop]

/-! ### Pages are pieces -/

theorem exists_of {limit offset : Int64} (hlimit : 1 ≤ limit.toInt) (hoffset : 0 ≤ offset.toInt) :
    ∃ window, Window.of limit offset = .ok window ∧ window.limit = limit ∧
      window.offset = offset := by
  refine ⟨⟨limit, offset, hlimit, hoffset⟩, ?_, rfl, rfl⟩
  unfold Window.of
  rw [dif_pos hlimit, dif_pos hoffset]

theorem offset_of {limit offset : Int64} {window : Window}
    (h : Window.of limit offset = .ok window) : window.offset = offset := by
  unfold Window.of at h
  split_ifs at h
  cases h
  rfl

/-- A page that can be asked for is a piece of the list. -/
theorem page_eq {limit : Int64} (hlimit : 1 ≤ limit.toInt) (items : List α) {number : Nat}
    (hlarge : number * limit.toInt < 2 ^ 63) :
    page limit items number = .ok (chunk limit.toInt.toNat items number) := by
  have hnonneg : 0 ≤ (number : Int) * limit.toInt :=
    Int.mul_nonneg (Int.natCast_nonneg number) (by omega)
  have htoInt : (Int64.ofInt (number * limit.toInt)).toInt = number * limit.toInt :=
    Int64.toInt_ofInt_of_le (by omega) hlarge
  obtain ⟨window, hwindow, hl, ho⟩ := exists_of hlimit (htoInt ▸ hnonneg)
  unfold page
  rw [hwindow]
  show Except.ok (window.slice items) = _
  unfold slice chunk
  rw [hl, ho, htoInt, Int.toNat_mul (by omega) (by omega), Int.toNat_natCast]

/-- A window whose offset is not in the list any more is empty. -/
theorem slice_of_length_le {window : Window} {items : List α}
    (h : items.length ≤ window.offset.toInt) : window.slice items = [] := by
  unfold slice
  rw [List.drop_eq_nil_of_le (by omega), List.take_nil]

/-- All pieces before the end of a list are full, and the one at its end is short. -/
theorem length_chunk_cases {size : Nat} (hsize : 1 ≤ size) (items : List α) :
    (∀ number < items.length / size, (chunk size items number).length = size) ∧
      (chunk size items (items.length / size)).length < size ∧
      items.length ≤ (items.length / size + 1) * size := by
  have hdiv := Nat.div_add_mod items.length size
  have hmod := Nat.mod_lt items.length hsize
  rw [Nat.mul_comm] at hdiv
  refine ⟨fun number hnumber => ?_, ?_, ?_⟩
  · have hle : (number + 1) * size ≤ items.length / size * size := Nat.mul_le_mul_right _ hnumber
    rw [length_chunk]
    rw [Nat.succ_mul] at hle
    omega
  · rw [length_chunk]
    omega
  · rw [Nat.succ_mul]
    omega

/-- **Walking the pages** of a list, up to the first that is shorter than the limit: all pages
before that one have as many elements as the limit says, and together they are the list, so every
element is seen once and in order. Windows at the end of the list or behind it are empty. The last
page can be asked for if its offset has 64 bits, as it has for any list in memory. -/
theorem walk_visits_once (items : List α) (limit : Int64) (hlimit : 1 ≤ limit.toInt)
    (hlast : items.length / limit.toInt * limit.toInt < 2 ^ 63) :
    (∃ full short, (List.range (full.length + 1)).map (page limit items) =
        (full ++ [short]).map .ok ∧
      (∀ page ∈ full, (page.length : Int) = limit.toInt) ∧ (short.length : Int) < limit.toInt ∧
      (full ++ [short]).flatten = items) ∧
    ∀ (limit offset : Int64) (window : Window), Window.of limit offset = .ok window →
      items.length ≤ offset.toInt → window.slice items = [] := by
  obtain ⟨size, hsize⟩ := Int.eq_ofNat_of_zero_le (show 0 ≤ limit.toInt by omega)
  obtain ⟨hfull, hshort, hend⟩ := length_chunk_cases (show 1 ≤ size by omega) items
  have hpieces : (List.range (items.length / size)).map (chunk size items) ++
      [chunk size items (items.length / size)] =
        (List.range (items.length / size + 1)).map (chunk size items) := by
    rw [List.range_succ, List.map_append, List.map_singleton]
  refine ⟨⟨(List.range (items.length / size)).map (chunk size items),
    chunk size items (items.length / size), ?_, ?_, by omega, ?_⟩, ?_⟩
  · rw [hpieces, List.length_map, List.length_range, List.map_map]
    refine List.map_congr_left fun number hnumber => ?_
    have hle : number * size ≤ items.length / size * size :=
      Nat.mul_le_mul_right _ (Nat.le_of_lt_succ (List.mem_range.1 hnumber))
    have hoffset : number * limit.toInt < 2 ^ 63 := by
      rw [hsize] at hlast ⊢
      norm_cast at hlast ⊢
      omega
    rw [page_eq hlimit items hoffset, hsize]
    rfl
  · intro page hpage
    obtain ⟨number, hnumber, rfl⟩ := List.mem_map.1 hpage
    rw [hfull number (List.mem_range.1 hnumber), hsize]
  · rw [hpieces, flatten_chunks, List.take_of_length_le hend]
  · intro limit offset window hwindow hoffset
    refine slice_of_length_le ?_
    rwa [offset_of hwindow]

/-- Five elements by two: two full pages, and a short one. -/
theorem walk_visits_once_five :
    let items := [1, 2, 3, 4, 5]
    1 ≤ (2 : Int64).toInt ∧ items.length / (2 : Int64).toInt * (2 : Int64).toInt < 2 ^ 63 ∧
      ∃ full short, (List.range (full.length + 1)).map (page 2 items) = (full ++ [short]).map .ok ∧
        (∀ page ∈ full, (page.length : Int) = (2 : Int64).toInt) ∧
        (short.length : Int) < (2 : Int64).toInt ∧ (full ++ [short]).flatten = items := by
  intro items
  have hlimit : 1 ≤ (2 : Int64).toInt := by decide
  have hlast : items.length / (2 : Int64).toInt * (2 : Int64).toInt < 2 ^ 63 := by decide
  exact ⟨hlimit, hlast, (walk_visits_once items 2 hlimit hlast).1⟩

end Catalogue.Window
