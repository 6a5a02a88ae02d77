import Catalogue.Http.Parameter
import Catalogue.Proofs.Numerals

/-!
# Integer parameters and page windows

An integer parameter is taken if it is a numeral of an integer of 64 bits
(`Http.readParam_eq_ok_iff`). What the two parameters of a listing come to is said case by case
(`Http.ListQuery.ComesTo`), without the order in which they are looked at: one that says nothing
makes the listing whole, whatever the other says; a numeral that cannot be read is named before one
out of bounds; and of two of either kind the limit is named. The cases cover all listings
(`Http.ListQuery.exists_comesTo`), and each is what is made of it (`Http.ListQuery.ComesTo.tells`).
-/

namespace Catalogue.Http

open Numeral (Denotes)

/-- The decimal text of an integer. -/
def decimal (n : Int64) : String := String.ofList (Numeral.ofInt n.toInt)

/-- Whether a parameter says nothing: it is left out or empty. -/
def Silent (parameter : Option String) : Prop := parameter = none ∨ parameter = some ""

/-- Whether a parameter is a numeral of an integer of 64 bits. -/
def Names (parameter : Option String) (n : Int64) : Prop :=
  ∃ text, parameter = some text ∧ Denotes text.toList n.toInt

/-- Whether a parameter says something that is no numeral of an integer of 64 bits. -/
def Illegible (parameter : Option String) : Prop := ¬ Silent parameter ∧ ∀ n, ¬ Names parameter n

/-- **What the parameters of a listing come to**: no window, a window, or a refusal that names one
of them. -/
inductive ListQuery.ComesTo (query : ListQuery) : Except String (Option Window) → Prop
  | whole : Silent query.limit ∨ Silent query.offset → ComesTo query (.ok none)
  | window (window : Window) : Names query.limit window.limit → Names query.offset window.offset →
      ComesTo query (.ok (some window))
  | illegibleLimit : Illegible query.limit → ¬ Silent query.offset → ComesTo query (.error "limit")
  | illegibleOffset {limit : Int64} : Names query.limit limit → Illegible query.offset →
      ComesTo query (.error "offset")
  | smallLimit {limit offset : Int64} : Names query.limit limit → Names query.offset offset →
      limit.toInt < 1 → ComesTo query (.error "limit")
  | negativeOffset {limit offset : Int64} : Names query.limit limit → Names query.offset offset →
      1 ≤ limit.toInt → offset.toInt < 0 → ComesTo query (.error "offset")

/-- How it is told: a refusal is that of the parameter that is named, with whatever detail. -/
inductive Tells {α : Type} : Except ApiError α → Except String α → Prop
  | ok (value : α) : Tells (.ok value) (.ok value)
  | refused (name detail : String) : Tells (.error (.invalidParam name detail)) (.error name)

/-! ### Integers -/

variable {name text : String} {n id : Int64} {e : ApiError}

theorem toInt_ofInt {i : Int} (h : Numeral.Range.int64.holds i = true) :
    (Int64.ofInt i).toInt = i := by
  obtain ⟨hleast, hgreatest⟩ := Numeral.holds_iff.1 h
  exact Int64.toInt_ofInt_of_le hleast (Int.lt_of_le_of_lt hgreatest (by decide))

theorem holds_toInt (n : Int64) : Numeral.Range.int64.holds n.toInt = true :=
  Numeral.holds_iff.2 ⟨n.le_toInt, n.toInt_le⟩

theorem readParam_eq_ok_iff : readParam name text = .ok n ↔ Denotes text.toList n.toInt := by
  have hread : ∀ {i : Int}, Numeral.read .int64 text.toList = .ok i ↔
      Denotes text.toList i ∧ Numeral.Range.int64.holds i = true :=
    Numeral.read_eq_ok_iff (by decide) (by decide)
  unfold readParam
  cases hi : Numeral.read .int64 text.toList with
  | error flaw =>
    refine iff_of_false nofun fun h => ?_
    have hok := hread.2 ⟨h, holds_toInt n⟩
    rw [hi] at hok
    cases hok
  | ok i =>
    obtain ⟨hdenotes, hholds⟩ := hread.1 hi
    simp only [Except.ok.injEq]
    constructor
    · rintro rfl
      rw [toInt_ofInt hholds]
      exact hdenotes
    · intro h
      have hok := hread.2 ⟨h, holds_toInt n⟩
      rw [hi, Except.ok.injEq] at hok
      rw [hok, Int64.ofInt_toInt]

/-- An integer that is refused is refused under the name of its parameter. -/
theorem exists_of_readParam_error (h : readParam name text = .error e) :
    ∃ detail, e = .invalidParam name detail := by
  unfold readParam at h
  split at h
  · cases h
  · cases h
    exact ⟨_, rfl⟩

theorem readId_eq_ok_iff :
    readId text = .ok id ↔ Denotes text.toList id.toInt ∧ 1 ≤ id.toInt := by
  have hread : readParam "product id" text = .ok id ↔ Denotes text.toList id.toInt :=
    readParam_eq_ok_iff
  rw [← hread]
  unfold readId
  cases readParam "product id" text with
  | error e => exact iff_of_false nofun fun h => nomatch h.1
  | ok n =>
    dsimp only
    split_ifs with hn
    · refine iff_of_false nofun ?_
      rintro ⟨hid, hpos⟩
      cases hid
      omega
    · rw [iff_self_and]
      rintro hid
      cases hid
      omega

theorem exists_of_readId_error (h : readId text = .error e) :
    ∃ detail, e = .invalidParam "product id" detail := by
  unfold readId at h
  split at h
  · cases h
    rename_i hread
    exact exists_of_readParam_error hread
  · split_ifs at h
    cases h
    exact ⟨_, rfl⟩

/-! ### Listings -/

namespace ListQuery

variable {parameter : Option String} {query : ListQuery}

theorem filter_eq_none_iff : parameter.filter (· ≠ "") = none ↔ Silent parameter := by
  unfold Silent
  cases parameter with
  | none => simp
  | some text => by_cases h : text = "" <;> simp [h]

theorem filter_of_not_silent (h : ¬ Silent parameter) :
    ∃ text, parameter = some text ∧ parameter.filter (· ≠ "") = some text := by
  cases parameter with
  | none => exact absurd (Or.inl rfl) h
  | some text =>
    have hne : text ≠ "" := by
      rintro rfl
      exact h (Or.inr rfl)
    exact ⟨text, rfl, by simp [hne]⟩


theorem exists_of_names (name : String) (h : Names parameter n) :
    ∃ text, parameter.filter (· ≠ "") = some text ∧ readParam name text = .ok n := by
  obtain ⟨text, rfl, hdenotes⟩ := h
  have hne : text ≠ "" := by
    rintro rfl
    exact hdenotes.ne_nil rfl
  exact ⟨text, by simp [hne], readParam_eq_ok_iff.2 hdenotes⟩

theorem exists_of_illegible (name : String) (h : Illegible parameter) :
    ∃ text detail, parameter.filter (· ≠ "") = some text ∧
      readParam name text = .error (.invalidParam name detail) := by
  obtain ⟨text, rfl, hfilter⟩ := filter_of_not_silent h.1
  cases hread : readParam name text with
  | ok n => exact absurd ⟨text, rfl, readParam_eq_ok_iff.1 hread⟩ (h.2 n)
  | error e =>
    obtain ⟨detail, rfl⟩ := exists_of_readParam_error hread
    exact ⟨text, detail, hfilter, hread⟩

/-- Two numerals make a window, or one of them is out of bounds. -/
theorem window_of_names {limit offset : Int64} (hlimit : Names query.limit limit)
    (hoffset : Names query.offset offset) :
    query.window = match Window.of limit offset with
      | .ok window => .ok (some window)
      | .error (.limit v) => .error (.invalidParam "limit" (WindowFlaw.limit v).message)
      | .error (.offset v) => .error (.invalidParam "offset" (WindowFlaw.offset v).message) := by
  obtain ⟨limitText, hlimitText, hreadLimit⟩ := exists_of_names "limit" hlimit
  obtain ⟨offsetText, hoffsetText, hreadOffset⟩ := exists_of_names "offset" hoffset
  unfold window
  rw [hlimitText, hoffsetText]
  dsimp only
  rw [hreadLimit]
  dsimp only
  rewrite [hreadOffset]
  rcases hof : Window.of limit offset with (v | v) | window
  · simp only [hof]
  · simp only [hof]
  · simp only [hof]

/-- What the parameters come to is what is made of them. -/
theorem ComesTo.tells {came : Except String (Option Window)} (h : query.ComesTo came) :
    Tells query.window came := by
  cases h with
  | whole hsilent =>
    have hnone : query.window = .ok none := by
      unfold ListQuery.window
      rcases hsilent with hsilent | hsilent
      · rw [filter_eq_none_iff.2 hsilent]
      · rw [filter_eq_none_iff.2 hsilent]
        cases query.limit.filter (· ≠ "") <;> rfl
    rw [hnone]
    exact .ok none
  | window window hlimit hoffset =>
    have hof : Window.of window.limit window.offset = .ok window := by
      unfold Window.of
      rw [dif_pos window.one_le_limit, dif_pos window.zero_le_offset]
    rw [window_of_names hlimit hoffset, hof]
    exact .ok (some window)
  | illegibleLimit hlimit hoffset =>
    obtain ⟨limitText, detail, hlimitText, hread⟩ := exists_of_illegible "limit" hlimit
    obtain ⟨offsetText, -, hoffsetText⟩ := filter_of_not_silent hoffset
    unfold ListQuery.window
    rw [hlimitText, hoffsetText]
    dsimp only
    rw [hread]
    exact .refused "limit" detail
  | illegibleOffset hlimit hoffset =>
    obtain ⟨limitText, hlimitText, hreadLimit⟩ := exists_of_names "limit" hlimit
    obtain ⟨offsetText, detail, hoffsetText, hread⟩ := exists_of_illegible "offset" hoffset
    unfold ListQuery.window
    rw [hlimitText, hoffsetText]
    dsimp only
    rw [hreadLimit]
    dsimp only
    rw [hread]
    exact .refused "offset" detail
  | @smallLimit limit offset hlimit hoffset hsmall =>
    have hof : Window.of limit offset = .error (.limit limit) := by
      unfold Window.of
      rw [dif_neg (by omega)]
    rw [window_of_names hlimit hoffset, hof]
    exact .refused "limit" _
  | @negativeOffset limit offset hlimit hoffset hpos hnegative =>
    have hof : Window.of limit offset = .error (.offset offset) := by
      unfold Window.of
      rw [dif_pos hpos, dif_neg (by omega)]
    rw [window_of_names hlimit hoffset, hof]
    exact .refused "offset" _

/-- The parameters of every listing come to something. -/
theorem exists_comesTo (query : ListQuery) : ∃ came, query.ComesTo came := by
  have hcases : ∀ parameter, Silent parameter ∨ (∃ n, Names parameter n) ∨ Illegible parameter := by
    intro parameter
    by_cases hsilent : Silent parameter
    · exact Or.inl hsilent
    · by_cases hnames : ∃ n, Names parameter n
      · exact Or.inr (Or.inl hnames)
      · exact Or.inr (Or.inr ⟨hsilent, not_exists.1 hnames⟩)
  rcases hcases query.limit with hlimit | ⟨limit, hlimit⟩ | hlimit
  · exact ⟨_, .whole (Or.inl hlimit)⟩
  · rcases hcases query.offset with hoffset | ⟨offset, hoffset⟩ | hoffset
    · exact ⟨_, .whole (Or.inr hoffset)⟩
    · by_cases hpos : 1 ≤ limit.toInt
      · by_cases hnonneg : 0 ≤ offset.toInt
        · exact ⟨_, .window ⟨limit, offset, hpos, hnonneg⟩ hlimit hoffset⟩
        · exact ⟨_, .negativeOffset hlimit hoffset hpos (by omega)⟩
      · exact ⟨_, .smallLimit hlimit hoffset (by omega)⟩
    · exact ⟨_, .illegibleOffset hlimit hoffset⟩
  · by_cases hoffset : Silent query.offset
    · exact ⟨_, .whole (Or.inr hoffset)⟩
    · exact ⟨_, .illegibleLimit hlimit hoffset⟩

end ListQuery

section Tells

variable {α : Type} {told : Except ApiError α} {value : α} {came came' : Except String α}

theorem Tells.eq_ok (h : Tells told (.ok value)) : told = .ok value := by
  cases h
  rfl

/-- A refusal names one parameter only. -/
theorem Tells.unique (h : Tells told came) (h' : Tells told came') : came = came' := by
  cases h with
  | ok value =>
    cases h'
    rfl
  | refused name detail =>
    generalize htold : ApiError.invalidParam name detail = e at h'
    cases h' with
    | refused other detail' =>
      have hmessage : "Invalid " ++ name = "Invalid " ++ other := by
        simpa [ApiError.invalidParam, ApiError.refused, toString] using
          congrArg ApiError.message htold
      rw [(String.append_right_inj "Invalid ").1 hmessage]

end Tells

theorem names_decimal (n : Int64) : Names (some (decimal n)) n := by
  refine ⟨decimal n, rfl, ?_⟩
  unfold decimal
  rw [String.toList_ofList]
  exact Numeral.denotes_ofInt n.toInt

/-- **Integer parameters and page windows.**
* A text is the identifier of a product if and only if it is a numeral of a positive integer of 64
  bits: a sign or none, and digits, with as many zeros in front as one likes.
* A listing is whole if and only if one of its parameters says nothing. Otherwise it has the window
  that the two numerals name, or it is refused: for a limit that is no numeral, else for an offset
  that is none, else for a limit below one, else for an offset below zero.
* The decimal texts of the integers in bounds are taken, as what they are the texts of.
-/
theorem parameters_read :
    (∀ text n, (∃ id, readId text = .ok id ∧ id.toInt = n) ↔
      Denotes text.toList n ∧ 1 ≤ n ∧ n ≤ 0x7FFFFFFFFFFFFFFF) ∧
    (∀ (query : ListQuery) (came : Except String (Option Window)),
      Tells query.window came ↔ query.ComesTo came) ∧
    (∀ query : ListQuery, ∃ came, query.ComesTo came) ∧
    (∀ id : Int64, readId (decimal id) = .ok id ↔ 1 ≤ id.toInt) ∧
    ∀ window : Window,
      (ListQuery.mk (decimal window.limit) (decimal window.offset)).window = .ok (some window) := by
  refine ⟨fun text n => ⟨?_, ?_⟩, fun query came => ⟨fun h => ?_, ListQuery.ComesTo.tells⟩,
    ListQuery.exists_comesTo, fun id => ?_, fun window => ?_⟩
  · rintro ⟨id, hid, rfl⟩
    obtain ⟨hdenotes, hpos⟩ := readId_eq_ok_iff.1 hid
    exact ⟨hdenotes, hpos, id.toInt_le⟩
  · rintro ⟨hdenotes, hpos, hle⟩
    have htoInt : (Int64.ofInt n).toInt = n := toInt_ofInt (Numeral.holds_iff.2 ⟨by
      show -0x8000000000000000 ≤ n
      omega, hle⟩)
    refine ⟨Int64.ofInt n, readId_eq_ok_iff.2 ?_, htoInt⟩
    rw [htoInt]
    exact ⟨hdenotes, hpos⟩
  · obtain ⟨came', h'⟩ := query.exists_comesTo
    rw [h.unique h'.tells]
    exact h'
  · obtain ⟨_, ⟨⟩, hdenotes⟩ := names_decimal id
    rw [readId_eq_ok_iff]
    exact and_iff_right hdenotes
  · exact (ListQuery.ComesTo.window window (names_decimal _) (names_decimal _)).tells.eq_ok

end Catalogue.Http
