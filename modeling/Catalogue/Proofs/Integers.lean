import Catalogue.Proofs.Numerals
import Catalogue.Proofs.Words

/-!
# Integers of a JSON text

An integer is read where one of its words stands (`Json.readInt64Value_eq_ok_iff`): digits of which
the first is a zero only if it is the only one, whose value has 64 bits, and a minus sign in front
if it is negative. What follows must not go on with a number, for then the number has a fraction or an
exponent and is no integer (`Json.IsRounded`).
-/

namespace Catalogue

namespace Json

/-- The number that digits stand for, most significant first. -/
def amount (digits : Input) : Nat := digits.foldl (fun n x => n * 10 + digitValue x) 0

/-- The words of an integer of 64 bits. A zero has no sign. -/
inductive Integer : Input → Int64 → Prop
  | unsigned {digits : Input} {n : Int64} :
      Whole digits → amount digits = n.toInt → Integer digits n
  | negative {digits : Input} {n : Int64} :
      Whole digits → 0 < amount digits → -(amount digits : Int) = n.toInt →
        Integer (Byte.minus :: digits) n

variable {digits word input rest : Input} {negative : Bool} {m n before : Nat} {i : Int}

theorem le_foldl_digits (digits : Input) (n : Nat) :
    n ≤ digits.foldl (fun n x => n * 10 + digitValue x) n := by
  induction digits generalizing n with
  | nil => exact Nat.le_refl n
  | cons x digits ih =>
    have h := ih (n * 10 + digitValue x)
    rw [List.foldl_cons]
    omega

/-- All digits are kept if their number has 64 bits. -/
theorem appendDigits_eq_zero_iff (hn : n < 0x10000000000000000) :
    appendDigits n digits = (m, 0) ↔
      digits.foldl (fun n x => n * 10 + digitValue x) n = m ∧ m < 0x10000000000000000 := by
  induction digits generalizing n with
  | nil =>
    rw [appendDigits, Prod.mk.injEq, and_iff_left rfl, List.foldl_nil]
    exact ⟨fun h => ⟨h, h ▸ hn⟩, fun h => h.1⟩
  | cons x digits ih =>
    rw [appendDigits, List.foldl_cons]
    split_ifs with hgrown
    · exact ih hgrown
    · refine iff_of_false ?_ ?_
      · rw [Prod.mk.injEq]
        omega
      · rintro ⟨rfl, hlt⟩
        have hle := le_foldl_digits digits (n * 10 + digitValue x)
        omega

/-- Whether nothing of what is read is a whole number. -/
def IsRounded (read : Except Flaw (Number × Input)) : Prop :=
  ∀ i rest, read ≠ .ok (.whole i, rest)

theorem isRounded_error (flaw : Flaw) : IsRounded (.error flaw) := by
  intro i rest h
  cases h

theorem isRounded_float (x : Float) (rest : Input) : IsRounded (.ok (.rounded x, rest)) := by
  intro i left h
  cases h

theorem isRounded_finishFloat (negative : Bool) (digits : Nat) (exponent : Int) (rest : Input) :
    IsRounded (finishFloat negative digits exponent rest) := by
  intro i left h
  unfold finishFloat at h
  dsimp only at h
  split at h <;> cases h

theorem isRounded_readExponentDigits (negative : Bool) (digits : Nat) (before : Int)
    (negativeExponent : Bool) (e : Nat) (input : Input) :
    IsRounded (readExponentDigits negative digits before negativeExponent e input) := by
  induction input generalizing e with
  | nil => exact isRounded_finishFloat _ _ _ _
  | cons x input ih =>
    rw [readExponentDigits]
    dsimp only
    split_ifs
    · exact ih _
    · exact isRounded_error _
    · exact isRounded_float _ _
    · exact isRounded_float _ _
    · exact isRounded_finishFloat _ _ _ _

theorem isRounded_readExponent (negative : Bool) (digits : Nat) (before : Int) (input : Input) :
    IsRounded (readExponent negative digits before input) := by
  unfold readExponent
  dsimp only
  split
  · exact isRounded_error _
  · split_ifs
    · exact isRounded_readExponentDigits _ _ _ _ _ _
    · exact isRounded_error _

theorem isRounded_readFraction (negative : Bool) (digits before : Nat) (input : Input) :
    IsRounded (readFraction negative digits before input) := by
  unfold readFraction
  split
  · split <;> exact isRounded_error _
  · dsimp only
    split
    · exact isRounded_finishFloat _ _ _ _
    · split_ifs
      · exact isRounded_readExponent _ _ _ _
      · exact isRounded_finishFloat _ _ _ _

/-- Behind its digits a whole number has no point and no exponent. -/
theorem readTail_eq_whole_iff (hleading : leadingDigits input = []) :
    readTail negative n before input = .ok (.whole i, rest) ↔
      rest = input ∧ Ends input ∧ before = 0 ∧ finishWhole negative n = .whole i := by
  have hwhole : Ends input →
      ((if before = 0 then Except.ok (finishWhole negative n, input)
        else finishFloat negative n before input) = .ok (.whole i, rest) ↔
          rest = input ∧ Ends input ∧ before = 0 ∧ finishWhole negative n = .whole i) := by
    intro hends
    split_ifs with hbefore
    · rw [Except.ok.injEq, Prod.mk.injEq]
      exact ⟨fun h => ⟨h.2.symm, hends, hbefore, h.1⟩, fun h => ⟨h.2.2.2, h.1.symm⟩⟩
    · exact iff_of_false (isRounded_finishFloat _ _ _ _ _ _) fun h => hbefore h.2.2.1
  cases input with
  | nil => exact hwhole trivial
  | cons x tail =>
    rw [readTail]
    by_cases hpoint : x = Byte.point
    · rw [if_pos hpoint]
      exact iff_of_false (isRounded_readFraction _ _ _ _ _ _) fun h => h.2.1.2.1 hpoint
    by_cases hmark : Byte.isExponentMark x = true
    · rw [if_neg hpoint, if_pos hmark]
      exact iff_of_false (isRounded_readExponent _ _ _ _ _ _) fun h =>
        Bool.false_ne_true (h.2.1.2.2.symm.trans hmark)
    rw [if_neg hpoint, if_neg hmark]
    refine hwhole ⟨?_, hpoint, Bool.eq_false_iff.2 hmark⟩
    refine Bool.eq_false_iff.2 fun hx => ?_
    unfold leadingDigits at hleading
    rw [List.takeWhile_cons_of_pos hx] at hleading
    cases hleading

theorem leadingDigits_skipDigits (input : Input) : leadingDigits (skipDigits input) = [] := by
  cases hskip : skipDigits input with
  | nil => rfl
  | cons x tail =>
    have hhead := List.head?_dropWhile_not Byte.isDigit input
    rw [show input.dropWhile Byte.isDigit = x :: tail from hskip] at hhead
    exact leadingDigits_eq_nil_of_not_digit hhead

theorem digitValue_lt (x : UInt8) : digitValue x < 0x10000000000000000 := by
  have := x.toNat_lt
  unfold digitValue
  omega

theorem amount_cons (x : UInt8) (digits : Input) :
    amount (x :: digits) = digits.foldl (fun n x => n * 10 + digitValue x) (digitValue x) := by
  unfold amount
  rw [List.foldl_cons, Nat.zero_mul, Nat.zero_add]

/-- A whole number is read from its digits. -/
theorem readNumber_eq_whole_iff :
    readNumber negative input = .ok (.whole i, rest) ↔
      Ends rest ∧ ∃ digits, Whole digits ∧ input = digits ++ rest ∧
        amount digits < 0x10000000000000000 ∧ finishWhole negative (amount digits) = .whole i := by
  constructor
  · intro h
    unfold readNumber at h
    split at h
    · cases h
    rename_i x tail
    split_ifs at h with hzero hx
    · split at h
      · rename_i hleading
        obtain ⟨rfl, hends, -, hwhole⟩ := (readTail_eq_whole_iff hleading).1 h
        exact ⟨hends, [Byte.zero], .zero, by rw [hzero]; rfl, by decide, hwhole⟩
      · cases h
    · obtain ⟨rfl, hends, hbefore, hwhole⟩ :=
        (readTail_eq_whole_iff (leadingDigits_skipDigits tail)).1 h
      have hkept : appendDigits (digitValue x) (leadingDigits tail) = (_, 0) :=
        Prod.ext rfl hbefore
      obtain ⟨hamount, hlt⟩ := (appendDigits_eq_zero_iff (digitValue_lt x)).1 hkept
      rw [← amount_cons] at hamount
      refine ⟨hends, x :: leadingDigits tail, .digits hx hzero fun y hy =>
        isDigit_of_mem_leadingDigits hy, ?_, hamount ▸ hlt, hamount ▸ hwhole⟩
      rw [List.cons_append, leadingDigits_append_skipDigits]
  · rintro ⟨hends, digits, hdigits, rfl, hlt, hwhole⟩
    have hleading := hends.leadingDigits_eq_nil
    cases hdigits with
    | zero =>
      rw [List.singleton_append, readNumber, if_pos rfl, hleading]
      exact (readTail_eq_whole_iff hleading).2 ⟨rfl, hends, rfl, hwhole⟩
    | @digits x tail hx hzero htail =>
      obtain ⟨hfront, hbehind⟩ := digits_append htail hleading
      rw [amount_cons] at hlt hwhole
      have hkept := (appendDigits_eq_zero_iff (digitValue_lt x)).2 ⟨rfl, hlt⟩
      rw [List.cons_append, readNumber, if_neg hzero, if_pos hx, hfront, hbehind, hkept]
      exact (readTail_eq_whole_iff hleading).2 ⟨rfl, hends, rfl, hwhole⟩

theorem finishWhole_false_eq_iff : finishWhole false n = .whole i ↔ (n : Int) = i := by
  unfold finishWhole
  rw [if_neg (by decide), Number.whole.injEq]

theorem finishWhole_true_eq_iff :
    finishWhole true n = .whole i ↔ 0 < n ∧ n ≤ 0x8000000000000000 ∧ -(n : Int) = i := by
  unfold finishWhole
  rw [if_pos rfl]
  split_ifs with h
  · rw [Number.whole.injEq, ← and_assoc, and_iff_right h]
  · exact iff_of_false nofun fun hn => h ⟨hn.1, hn.2.1⟩

/-- Just the whole numbers of 64 bits are integers. -/
theorem convert_eq_ok_iff {read : Except Flaw (Number × Input)} {n : Int64} :
    readInt64Value.convert read = .ok (n, rest) ↔ read = .ok (.whole n.toInt, rest) := by
  constructor
  · intro h
    match read, h with
    | .ok (.whole i, left), h =>
      change (Number.whole i).toInt64 left = .ok (n, rest) at h
      unfold Number.toInt64 at h
      dsimp only at h
      split_ifs at h with hholds
      cases h
      obtain ⟨hleast, hgreatest⟩ := Numeral.holds_iff.1 hholds
      rw [Int64.toInt_ofInt_of_le hleast (Int.lt_of_le_of_lt hgreatest (by decide))]
  · rintro rfl
    exact toInt64_whole n rest

/-- **An integer is read** where its word stands and no number goes on. -/
theorem readInt64Value_eq_ok_iff {n : Int64} :
    readInt64Value input = .ok (n, rest) ↔
      Ends rest ∧ ∃ word, Integer word n ∧ Spaced [word] input rest := by
  have hleast := n.le_toInt
  have hgreatest := n.toInt_lt
  constructor
  · intro h
    unfold readInt64Value at h
    split at h
    · cases h
    rename_i x tail hskip
    have hblank := (skipBlanks_eq_cons_iff.1 hskip).1
    split_ifs at h with hminus hdigit
    · obtain ⟨hends, digits, hdigits, rfl, -, hwhole⟩ :=
        readNumber_eq_whole_iff.1 (convert_eq_ok_iff.1 h)
      obtain ⟨hpos, -, hn⟩ := finishWhole_true_eq_iff.1 hwhole
      rw [hminus] at hskip hblank
      exact ⟨hends, _, .negative hdigits hpos hn,
        (spaced_word_iff hblank).2 ⟨rest, hskip, .nil rest⟩⟩
    · obtain ⟨hends, digits, hdigits, heq, -, hwhole⟩ :=
        readNumber_eq_whole_iff.1 (convert_eq_ok_iff.1 h)
      obtain ⟨y, left, rfl, -⟩ := hdigits.exists_digit
      obtain ⟨rfl, rfl⟩ := List.cons.inj heq
      exact ⟨hends, _, .unsigned hdigits (finishWhole_false_eq_iff.1 hwhole),
        (spaced_word_iff hblank).2 ⟨rest, hskip, .nil rest⟩⟩
  · rintro ⟨hends, word, hword, hspaced⟩
    unfold readInt64Value
    cases hword with
    | unsigned hdigits hn =>
      have hread : readNumber false (word ++ rest) = .ok (.whole n.toInt, rest) :=
        readNumber_eq_whole_iff.2
          ⟨hends, word, hdigits, rfl, by omega, finishWhole_false_eq_iff.2 hn⟩
      obtain ⟨x, tail, rfl, hx⟩ := hdigits.exists_digit
      obtain ⟨hblank, hminus⟩ := isBlank_of_isDigit hx
      obtain ⟨_, hskip, ⟨⟩⟩ := (spaced_word_iff hblank).1 hspaced
      rw [hskip]
      dsimp only
      rw [if_neg hminus, if_pos hx]
      exact convert_eq_ok_iff.2 hread
    | @negative digits _ hdigits hpos hn =>
      obtain ⟨_, hskip, ⟨⟩⟩ := (spaced_word_iff (by decide)).1 hspaced
      rw [hskip]
      dsimp only
      rw [if_pos rfl]
      exact convert_eq_ok_iff.2 (readNumber_eq_whole_iff.2 ⟨hends, digits, hdigits, rfl, by omega,
        finishWhole_true_eq_iff.2 ⟨hpos, by omega, hn⟩⟩)

end Json

end Catalogue
