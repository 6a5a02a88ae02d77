import Catalogue.Text.Numeral
import Mathlib.Data.List.Induction
import Mathlib.Data.List.TakeWhile
import Mathlib.Tactic.IntervalCases

/-!
# What digits stand for

Digits of a base stand for a number (`Numeral.Stands`), which is built up from the front: a digit
behind a number multiplies it by the base and is added. Of a text the digits in front are well
determined (`Numeral.append_inj_of_digits`), and of all the ways to write a number in base ten the
one that is written is the one without needless zeros (`Numeral.Stands.eq_ofNat`).
-/

namespace Catalogue.Numeral

/-- A digit of a base up to sixteen, in either case, and its value. -/
inductive DigitOf (base : Nat) : Char → Nat → Prop
  | decimal {c : Char} {d : Nat} : d < 10 → d < base → c.toNat = '0'.toNat + d → DigitOf base c d
  | lower {c : Char} {d : Nat} :
      d < 6 → 10 + d < base → c.toNat = 'a'.toNat + d → DigitOf base c (10 + d)
  | upper {c : Char} {d : Nat} :
      d < 6 → 10 + d < base → c.toNat = 'A'.toNat + d → DigitOf base c (10 + d)

/-- **One or more digits, and the number that they stand for**, most significant first. -/
inductive Stands (base : Nat) : List Char → Nat → Prop
  | digit {c : Char} {d : Nat} : DigitOf base c d → Stands base [c] d
  | more {word : List Char} {n : Nat} {c : Char} {d : Nat} :
      Stands base word n → DigitOf base c d → Stands base (word ++ [c]) (n * base + d)

/-- No digit stands in front. -/
def NoDigit (base : Nat) (text : List Char) : Prop :=
  ∀ c rest, text = c :: rest → ∀ d, ¬ DigitOf base c d

variable {base n d : Nat} {c : Char} {word rest : List Char}

theorem DigitOf.hexadecimal (h : DigitOf base c d) : DigitOf 16 c d := by
  cases h with
  | decimal hd _ hc => exact .decimal hd (by omega) hc
  | lower hd _ hc => exact .lower hd (by omega) hc
  | upper hd _ hc => exact .upper hd (by omega) hc

theorem exists_digitOf_of_isDigit (h : c.isDigit = true) : ∃ d, DigitOf 10 c d := by
  have h0 : '0'.toNat = 48 := rfl
  have h9 : '9'.toNat = 57 := rfl
  obtain ⟨hlow, hhigh⟩ := Char.isDigit_iff_toNat.1 h
  exact ⟨c.toNat - 48, .decimal (by omega) (by omega) (by omega)⟩

theorem DigitOf.lt (h : DigitOf base c d) : d < base := by
  cases h <;> omega

/-- Where digits are among the characters. -/
theorem DigitOf.range (h : DigitOf base c d) :
    (48 ≤ c.toNat ∧ c.toNat ≤ 57) ∨ (65 ≤ c.toNat ∧ c.toNat ≤ 70) ∨
      (97 ≤ c.toNat ∧ c.toNat ≤ 102) := by
  have h0 : '0'.toNat = 48 := rfl
  have ha : 'a'.toNat = 97 := rfl
  have hA : 'A'.toNat = 65 := rfl
  cases h <;> omega

theorem digitIn?_eq_some_iff (hbase : base ≤ 16) : digitIn? base c = some d ↔ DigitOf base c d := by
  have h0 : '0'.toNat = 48 := rfl
  have h9 : '9'.toNat = 57 := rfl
  have ha : 'a'.toNat = 97 := rfl
  have hf : 'f'.toNat = 102 := rfl
  have hA : 'A'.toNat = 65 := rfl
  have hF : 'F'.toNat = 70 := rfl
  unfold digitIn?
  simp only [Char.le_def, UInt32.le_iff_toNat_le, Char.toNat_val]
  constructor
  · intro h
    split_ifs at h with hdecimal hbound hlower hbound hupper hbound
    · cases h
      exact .decimal (by omega) hbound (by omega)
    · cases h
      rw [Nat.add_comm]
      exact .lower (by omega) (by omega) (by omega)
    · cases h
      rw [Nat.add_comm]
      exact .upper (by omega) (by omega) (by omega)
    · omega
  · -- the ranges of the three kinds are apart, so each kind leaves one way through the tests
    rintro (⟨hd, hlt, hc⟩ | ⟨hd, hlt, hc⟩ | ⟨hd, hlt, hc⟩)
    · split_ifs <;> first | omega | rw [Option.some.injEq]; omega
    · split_ifs <;> first | omega | rw [Option.some.injEq]; omega
    · split_ifs <;> first | omega | rw [Option.some.injEq]; omega

theorem isSome_digitIn?_iff (hbase : base ≤ 16) :
    (digitIn? base c).isSome = true ↔ ∃ d, DigitOf base c d := by
  rw [Option.isSome_iff_exists]
  exact exists_congr fun d => digitIn?_eq_some_iff hbase

theorem Stands.ne_nil (h : Stands base word n) : word ≠ [] := by
  cases h with
  | digit => simp
  | more => simp

theorem Stands.exists_digit (h : Stands base word n) : ∀ c ∈ word, ∃ d, DigitOf base c d := by
  induction h with
  | digit hc => exact fun c hmem => ⟨_, List.mem_singleton.1 hmem ▸ hc⟩
  | more _ hc ih =>
    intro c hmem
    rcases List.mem_append.1 hmem with hmem | hmem
    · exact ih c hmem
    · exact ⟨_, List.mem_singleton.1 hmem ▸ hc⟩

theorem Stands.lt (h : Stands base word n) : n < base ^ word.length := by
  induction h with
  | digit hc => simpa using hc.lt
  | @more word n c d _ hc ih =>
    rw [List.length_append, List.length_singleton, Nat.pow_succ]
    calc n * base + d < n * base + base := Nat.add_lt_add_left hc.lt _
      _ = (n + 1) * base := (Nat.succ_mul n base).symm
      _ ≤ base ^ word.length * base := Nat.mul_le_mul_right base ih

/-- Digits stand for the number that the reader makes of them. -/
theorem Stands.ofDigits_eq (hbase : base ≤ 16) (h : Stands base word n) :
    ofDigits base (word.filterMap (digitIn? base)) = n := by
  induction h with
  | digit hc =>
    rw [List.filterMap_cons_some ((digitIn?_eq_some_iff hbase).2 hc)]
    simp [ofDigits]
  | more _ hc ih =>
    rw [List.filterMap_append, List.filterMap_cons_some ((digitIn?_eq_some_iff hbase).2 hc)]
    unfold ofDigits at ih ⊢
    rw [List.foldl_append, ih]
    rfl

theorem exists_stands (hne : word ≠ []) (h : ∀ c ∈ word, ∃ d, DigitOf base c d) :
    ∃ n, Stands base word n := by
  induction word using List.reverseRec with
  | nil => exact absurd rfl hne
  | append_singleton word c ih =>
    obtain ⟨d, hd⟩ := h c (by simp)
    cases word with
    | nil => exact ⟨d, .digit hd⟩
    | cons first others =>
      obtain ⟨n, hn⟩ := ih (by simp) fun c hmem => h c (List.mem_append_left _ hmem)
      exact ⟨_, .more hn hd⟩

theorem takeWhile_of_digits (hbase : base ≤ 16) (h : ∀ c ∈ word, ∃ d, DigitOf base c d)
    (hrest : NoDigit base rest) :
    (word ++ rest).takeWhile (fun c => (digitIn? base c).isSome) = word := by
  rw [List.takeWhile_append_of_pos fun c hmem => (isSome_digitIn?_iff hbase).2 (h c hmem)]
  cases rest with
  | nil => simp
  | cons c rest =>
    have hc : ¬ (digitIn? base c).isSome = true := by
      rw [isSome_digitIn?_iff hbase]
      rintro ⟨d, hd⟩
      exact hrest c rest rfl d hd
    rw [List.takeWhile_cons_of_neg (by simpa using hc), List.append_nil]

/-- Every text has its digits in front. -/
theorem exists_digits (base : Nat) (text : List Char) :
    ∃ word rest, text = word ++ rest ∧ (∀ c ∈ word, ∃ d, DigitOf base c d) ∧ NoDigit base rest := by
  induction text with
  | nil => exact ⟨[], [], rfl, nofun, nofun⟩
  | cons c tail ih =>
    by_cases hc : ∃ d, DigitOf base c d
    · obtain ⟨word, rest, rfl, hdigits, hrest⟩ := ih
      exact ⟨c :: word, rest, rfl, List.forall_mem_cons.2 ⟨hc, hdigits⟩, hrest⟩
    · refine ⟨[], c :: tail, rfl, nofun, ?_⟩
      rintro _ _ ⟨⟩ d hd
      exact hc ⟨d, hd⟩

/-- Digits and what stands behind them are told apart by what comes first behind them. -/
theorem append_inj_of_digits {word' rest' : List Char} (h : ∀ c ∈ word, ∃ d, DigitOf base c d)
    (h' : ∀ c ∈ word', ∃ d, DigitOf base c d) (hrest : NoDigit base rest)
    (hrest' : NoDigit base rest') (heq : word ++ rest = word' ++ rest') :
    word = word' ∧ rest = rest' := by
  induction word generalizing word' with
  | nil =>
    cases word' with
    | nil => exact ⟨rfl, heq⟩
    | cons c word' =>
      obtain ⟨d, hd⟩ := h' c List.mem_cons_self
      exact absurd hd (hrest c _ heq d)
  | cons c word ih =>
    cases word' with
    | nil =>
      obtain ⟨d, hd⟩ := h c List.mem_cons_self
      exact absurd hd (hrest' c _ heq.symm d)
    | cons c' word' =>
      obtain ⟨rfl, htail⟩ := List.cons_eq_cons.1 heq
      obtain ⟨rfl, hrests⟩ := ih (fun c hmem => h c (List.mem_cons_of_mem _ hmem))
        (fun c hmem => h' c (List.mem_cons_of_mem _ hmem)) htail
      exact ⟨rfl, hrests⟩

theorem digitOf_digitChar (h : d < 10) : DigitOf 10 d.digitChar d := by
  refine .decimal h h ?_
  interval_cases d <;> rfl

theorem DigitOf.eq_digitChar (h : DigitOf 10 c d) : c = d.digitChar := by
  cases h with
  | decimal hd _ hc =>
    rw [← Char.toNat_inj, hc]
    interval_cases d <;> rfl
  | lower _ hlt => omega
  | upper _ hlt => omega

/-- The digits that are written of a number stand for it. -/
theorem stands_ofNat (n : Nat) : Stands 10 (ofNat n) n := by
  induction n using Nat.strongRecOn with
  | _ n ih =>
    unfold ofNat
    rw [Nat.toDigits_eq_if (by decide)]
    split_ifs with hsmall
    · exact .digit (digitOf_digitChar hsmall)
    · have hlast : DigitOf 10 (n % 10).digitChar (n % 10) := digitOf_digitChar (by omega)
      have hmore := Stands.more (ih (n / 10) (by omega)) hlast
      rw [Nat.div_add_mod'] at hmore
      exact hmore

theorem Stands.pos_and_eq_ofNat (h : Stands 10 word n) (hzero : word.head? ≠ some '0') :
    0 < n ∧ word = ofNat n := by
  induction h with
  | @digit c d hd =>
    have hc := hd.eq_digitChar
    refine ⟨Nat.pos_of_ne_zero ?_, ?_⟩
    · rintro rfl
      exact hzero (congrArg some hc)
    · rw [ofNat, Nat.toDigits_of_lt_base hd.lt, ← hc]
  | @more word n c d hword hd ih =>
    obtain ⟨first, others, hcons⟩ := List.exists_cons_of_ne_nil hword.ne_nil
    subst hcons
    obtain ⟨hpos, heq⟩ := ih hzero
    refine ⟨by omega, ?_⟩
    have hdigits := Nat.toDigits_append_toDigits (by decide : 1 < 10) hpos hd.lt
    rw [Nat.toDigits_of_lt_base hd.lt, ← hd.eq_digitChar, Nat.mul_comm] at hdigits
    rw [heq]
    exact hdigits

/-- Digits that do not begin with a needless zero are those that are written of their number. -/
theorem Stands.eq_ofNat (h : Stands 10 word n) (hzero : word.length = 1 ∨ word.head? ≠ some '0') :
    word = ofNat n := by
  rcases hzero with hone | hzero
  · cases h with
    | digit hd => rw [ofNat, Nat.toDigits_of_lt_base hd.lt, ← hd.eq_digitChar]
    | more hword =>
      rw [List.length_append, List.length_singleton] at hone
      exact absurd (List.length_eq_zero_iff.1 (by omega)) hword.ne_nil
  · exact (h.pos_and_eq_ofNat hzero).2

/-- No needless zero is written. -/
theorem head?_ofNat (h : 0 < n) : (ofNat n).head? ≠ some '0' := by
  induction n using Nat.strongRecOn with
  | _ n ih =>
    unfold ofNat
    rw [Nat.toDigits_eq_if (by decide)]
    split_ifs with hsmall
    · interval_cases n <;> decide
    · have hfront : (ofNat (n / 10)).head? ≠ some '0' := ih (n / 10) (by omega) (by omega)
      obtain ⟨first, others, hcons⟩ := List.exists_cons_of_ne_nil (stands_ofNat (n / 10)).ne_nil
      unfold ofNat at hcons hfront
      rw [hcons] at hfront ⊢
      exact hfront

theorem length_or_head?_ofNat (n : Nat) :
    (ofNat n).length = 1 ∨ (ofNat n).head? ≠ some '0' := by
  rcases Nat.eq_zero_or_pos n with rfl | hpos
  · exact Or.inl rfl
  · exact Or.inr (head?_ofNat hpos)

end Catalogue.Numeral
