import Catalogue.Text.Numeral
import Mathlib.Tactic.Common

/-!
# What numerals denote

A numeral is an optional sign in front of one or more digits (`Numeral.Denotes`). The reader of
integers is compared with that: for a range with zero inside and negative numbers in it, it takes
just the numerals of the integers of the range (`Numeral.read_eq_ok_iff`).

The reader checks the range digit by digit and gives up at the first digit that leads out of it.
That is no loss, as further digits only lead further away from zero (`Numeral.le_ofDigitChars`);
the invariant of the reading is that what was read so far lies in the range.
-/

namespace Catalogue.Numeral

/-- One or more digits. -/
def AreDigits (chars : List Char) : Prop := chars ≠ [] ∧ ∀ c ∈ chars, c.isDigit = true

/-- The number that digits stand for, most significant first. -/
def valueOf (digits : List Char) : Nat := Nat.ofDigitChars 10 digits 0

/-- **What a numeral denotes**: the value of its digits, negated behind a minus sign. -/
inductive Denotes : List Char → Int → Prop
  | unsigned {digits : List Char} : AreDigits digits → Denotes digits (valueOf digits)
  | positive {digits : List Char} : AreDigits digits → Denotes ('+' :: digits) (valueOf digits)
  | negative {digits : List Char} : AreDigits digits → Denotes ('-' :: digits) (-valueOf digits)

/-- A natural number on the side of zero that a sign names. -/
def signed (negative : Bool) (n : Nat) : Int := if negative then -n else n

/-! ### Digits -/

variable {range : Range} {negative : Bool} {chars : List Char} {n : Nat} {i : Int}

theorem digit?_eq_some_iff {c : Char} {d : Nat} :
    digit? c = some d ↔ c.isDigit = true ∧ d = c.toNat - '0'.toNat := by
  have hdigit : ('0' ≤ c ∧ c ≤ '9') ↔ c.isDigit = true := by
    rw [Char.isDigit_iff_toNat]
    exact Iff.rfl
  unfold digit?
  split_ifs with h
  · rw [Option.some.injEq, and_iff_right (hdigit.1 h), eq_comm]
  · exact iff_of_false nofun fun hc => h (hdigit.2 hc.1)

theorem le_ofDigitChars (chars : List Char) (n : Nat) : n ≤ Nat.ofDigitChars 10 chars n := by
  induction chars generalizing n with
  | nil => simp
  | cons c rest ih =>
    have h := ih (10 * n + (c.toNat - '0'.toNat))
    rw [Nat.ofDigitChars_cons]
    omega

theorem holds_iff : range.holds i = true ↔ range.least ≤ i ∧ i ≤ range.greatest := by
  simp [Range.holds]

/-- A number that lies further away from zero on the same side is outside of a range too. -/
theorem not_holds_of_le (hzero : range.holds 0 = true) {m : Nat} (hle : n ≤ m)
    (h : ¬ range.holds (signed negative n) = true) : ¬ range.holds (signed negative m) = true := by
  rw [holds_iff] at hzero h ⊢
  cases negative <;> simp only [signed, if_true, Bool.false_eq_true, if_false] at h ⊢ <;> omega

theorem readDigits_cons_of_digit {c : Char} {d : Nat} (hd : digit? c = some d) :
    readDigits range negative (signed negative n) (c :: chars) =
      if signed negative (n * 10 + d) < range.least then .error .tooSmall
      else if range.greatest < signed negative (n * 10 + d) then .error .tooLarge
      else readDigits range negative (signed negative (n * 10 + d)) chars := by
  have hgrown : (if negative then signed negative n * 10 - d else signed negative n * 10 + d) =
      signed negative (n * 10 + d) := by
    cases negative <;> simp only [signed, if_true, Bool.false_eq_true, if_false] <;> omega
  rw [readDigits, hd]
  simp only [hgrown]

/-- **Digits behind a number of the range** are read if they are digits and do not lead out of the
range. -/
theorem readDigits_eq_ok_iff (hzero : range.holds 0 = true)
    (hn : range.holds (signed negative n) = true) :
    readDigits range negative (signed negative n) chars = .ok i ↔
      (∀ c ∈ chars, c.isDigit = true) ∧ i = signed negative (Nat.ofDigitChars 10 chars n) ∧
        range.holds i = true := by
  induction chars generalizing n with
  | nil =>
    rw [readDigits, Except.ok.injEq, Nat.ofDigitChars_nil]
    constructor
    · rintro rfl
      exact ⟨by simp, rfl, hn⟩
    · exact fun h => h.2.1.symm
  | cons c rest ih =>
    cases hd : digit? c with
    | none =>
      have hc : ¬ c.isDigit = true := by
        intro hc
        have hsome := digit?_eq_some_iff.2 ⟨hc, rfl⟩
        rw [hd] at hsome
        cases hsome
      rw [readDigits, hd]
      exact iff_of_false nofun fun h => hc (h.1 c List.mem_cons_self)
    | some d =>
      obtain ⟨hc, rfl⟩ := digit?_eq_some_iff.1 hd
      rw [readDigits_cons_of_digit hd, Nat.ofDigitChars_cons, Nat.mul_comm 10]
      by_cases hgrown : range.holds (signed negative (n * 10 + (c.toNat - '0'.toNat))) = true
      · have hbounds := holds_iff.1 hgrown
        rw [if_neg (by omega), if_neg (by omega), ih hgrown, List.forall_mem_cons,
          and_iff_right hc]
      · -- further digits do not lead back into the range
        have hout := not_holds_of_le hzero
          (le_ofDigitChars rest (n * 10 + (c.toNat - '0'.toNat))) hgrown
        refine iff_of_false ?_ ?_
        · rw [holds_iff] at hgrown
          split_ifs with hlow hhigh
          · exact nofun
          · exact nofun
          · exact absurd ⟨Int.not_lt.1 hlow, Int.not_lt.1 hhigh⟩ hgrown
        · rintro ⟨-, rfl, hin⟩
          exact hout hin

/-! ### Numerals -/

theorem AreDigits.not_isSign {c : Char} {rest : List Char} (h : AreDigits (c :: rest)) :
    c ≠ '+' ∧ c ≠ '-' := by
  have hc := h.2 c List.mem_cons_self
  constructor
  · rintro rfl
    exact absurd hc (by decide)
  · rintro rfl
    exact absurd hc (by decide)

theorem denotes_plus_iff : Denotes ('+' :: chars) i ↔ AreDigits chars ∧ i = valueOf chars := by
  constructor
  · intro h
    cases h with
    | unsigned h => exact absurd rfl h.not_isSign.1
    | positive h => exact ⟨h, rfl⟩
  · rintro ⟨h, rfl⟩
    exact .positive h

theorem denotes_minus_iff : Denotes ('-' :: chars) i ↔ AreDigits chars ∧ i = -valueOf chars := by
  constructor
  · intro h
    cases h with
    | unsigned h => exact absurd rfl h.not_isSign.2
    | negative h => exact ⟨h, rfl⟩
  · rintro ⟨h, rfl⟩
    exact .negative h

theorem denotes_iff_of_unsigned (hplus : ∀ rest, chars ≠ '+' :: rest)
    (hminus : ∀ rest, chars ≠ '-' :: rest) :
    Denotes chars i ↔ AreDigits chars ∧ i = valueOf chars := by
  constructor
  · intro h
    cases h with
    | unsigned h => exact ⟨h, rfl⟩
    | positive h => exact absurd rfl (hplus _)
    | negative h => exact absurd rfl (hminus _)
  · rintro ⟨h, rfl⟩
    exact .unsigned h

theorem Denotes.ne_nil (h : Denotes chars i) : chars ≠ [] := by
  cases h with
  | unsigned h => exact h.1
  | positive _ => simp
  | negative _ => simp

/-- The digits of a numeral behind its sign are read from zero on. -/
theorem readDigits_zero_iff (hzero : range.holds 0 = true) (hne : chars ≠ []) :
    readDigits range negative 0 chars = .ok i ↔
      (AreDigits chars ∧ i = signed negative (valueOf chars)) ∧ range.holds i = true := by
  have hsigned : signed negative 0 = 0 := by cases negative <;> rfl
  have hread : readDigits range negative (signed negative 0) chars = .ok i ↔ _ :=
    readDigits_eq_ok_iff hzero (by rw [hsigned]; exact hzero)
  rw [hsigned] at hread
  rw [hread, AreDigits, valueOf, and_iff_right hne, and_assoc]

/-- **The integers that are read** from a text are those of the range that it denotes. -/
theorem read_eq_ok_iff (hzero : range.holds 0 = true) (hleast : range.least < 0) :
    read range chars = .ok i ↔ Denotes chars i ∧ range.holds i = true := by
  unfold read
  split
  · exact iff_of_false nofun fun h => h.1.ne_nil rfl
  · exact iff_of_false nofun fun h => (denotes_plus_iff.1 h.1).1.1 rfl
  · exact iff_of_false nofun fun h => (denotes_minus_iff.1 h.1).1.1 rfl
  · rename_i rest hne
    rw [denotes_plus_iff, readDigits_zero_iff hzero (by simpa using hne)]
    rfl
  · rename_i rest hne
    rw [if_pos hleast, denotes_minus_iff, readDigits_zero_iff hzero (by simpa using hne)]
    rfl
  · rename_i hnil _ _ hplus hminus
    rw [denotes_iff_of_unsigned hplus hminus, readDigits_zero_iff hzero hnil]
    rfl

/-- What is written denotes the integer that was written. -/
theorem denotes_ofInt (i : Int) : Denotes (ofInt i) i := by
  have hdigits : ∀ n, AreDigits (ofNat n) ∧ valueOf (ofNat n) = n := fun n =>
    ⟨⟨Nat.toDigits_ne_nil, fun c hc => Nat.isDigit_of_mem_toDigits (by decide) (by decide) hc⟩,
      Nat.ofDigitChars_ten_toDigits⟩
  cases i with
  | ofNat n =>
    obtain ⟨hare, hvalue⟩ := hdigits n
    have h := Denotes.unsigned hare
    rw [hvalue] at h
    exact h
  | negSucc n =>
    obtain ⟨hare, hvalue⟩ := hdigits (n + 1)
    have h := Denotes.negative hare
    rw [hvalue] at h
    exact h

end Catalogue.Numeral
