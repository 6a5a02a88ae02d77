import Catalogue.Proofs.Spelling

/-!
# The words of a text that is passed over

Where nothing is kept of a value only the extent of its words matters. Here are the words that are
passed over, by their form: strings, of which escapes need not stand for characters
(`Json.Quotable`), numbers of any size (`Json.Unsigned`), and the three fixed words. Each reader
takes just the bytes of a word, where what follows does not go on with a number (`Json.Ends`).

`Json.Spaced` says that an input begins with words, however they are set apart by blanks.
-/

namespace Catalogue

namespace Json

/-! ### Words -/

/-- An input that begins with words, each behind any number of blanks, and what is behind them. -/
inductive Spaced : List Input → Input → Input → Prop
  | nil (rest : Input) : Spaced [] rest rest
  | cons {word : Input} {words : List Input} {blanks input rest : Input} :
      Blank blanks → Spaced words input rest →
        Spaced (word :: words) (blanks ++ (word ++ input)) rest

section Spaced

variable {words more : List Input} {word tail input mid rest : Input} {x : UInt8}

theorem spaced_cons_iff :
    Spaced (word :: words) input rest ↔
      ∃ blanks mid, Blank blanks ∧ input = blanks ++ (word ++ mid) ∧ Spaced words mid rest := by
  constructor
  · rintro (_ | ⟨hblank, hwords⟩)
    exact ⟨_, _, hblank, rfl, hwords⟩
  · rintro ⟨blanks, mid, hblank, rfl, hwords⟩
    exact .cons hblank hwords

theorem spaced_append_iff :
    Spaced (words ++ more) input rest ↔ ∃ mid, Spaced words input mid ∧ Spaced more mid rest := by
  induction words generalizing input with
  | nil =>
    constructor
    · intro h
      exact ⟨input, .nil input, h⟩
    · rintro ⟨mid, ⟨⟩, h⟩
      exact h
  | cons word words ih =>
    rw [List.cons_append, spaced_cons_iff]
    constructor
    · rintro ⟨blanks, left, hblank, rfl, hrest⟩
      obtain ⟨mid, hwords, hmore⟩ := ih.1 hrest
      exact ⟨mid, .cons hblank hwords, hmore⟩
    · rintro ⟨mid, hfront, hmore⟩
      obtain ⟨blanks, left, hblank, rfl, hwords⟩ := spaced_cons_iff.1 hfront
      exact ⟨blanks, left, hblank, rfl, ih.2 ⟨mid, hwords, hmore⟩⟩

theorem Spaced.length_le (h : Spaced words input rest) : rest.length ≤ input.length := by
  induction h with
  | nil => exact Nat.le_refl _
  | cons _ _ ih =>
    rw [List.length_append, List.length_append]
    omega

/-- The first word is behind the blanks. -/
theorem spaced_word_iff (hx : Byte.isBlank x = false) :
    Spaced ((x :: tail) :: words) input rest ↔
      ∃ mid, skipBlanks input = x :: (tail ++ mid) ∧ Spaced words mid rest := by
  rw [spaced_cons_iff]
  constructor
  · rintro ⟨blanks, mid, hblank, rfl, hwords⟩
    exact ⟨mid, skipBlanks_eq_cons_iff.2 ⟨hx, blanks, hblank, rfl⟩, hwords⟩
  · rintro ⟨mid, hskip, hwords⟩
    obtain ⟨-, blanks, hblank, rfl⟩ := skipBlanks_eq_cons_iff.1 hskip
    exact ⟨blanks, mid, hblank, rfl, hwords⟩

/-- A single byte is behind the blanks. -/
theorem spaced_mark_iff (hx : Byte.isBlank x = false) :
    Spaced ([x] :: words) input rest ↔ ∃ mid, skipBlanks input = x :: mid ∧ Spaced words mid rest :=
  spaced_word_iff hx

end Spaced

/-! ### Strings -/

section Strings

variable {word front input rest : Input} {chars : List Char} {c : Char} {x : UInt8}

/-- What may stand behind a backslash, whether it stands for a character or for half of one. -/
inductive EscapeForm : Input → Prop
  | letter {l c : Char} : (l, c) ∈ letters → EscapeForm [UInt8.ofNat l.toNat]
  | number {digits : Input} {n : Nat} : Hex digits n → EscapeForm (Byte.u :: digits)

/-- Whether a byte between quotes stands for itself, or for a part of a character. -/
def IsPlain (x : UInt8) : Prop := x ≠ Byte.quote ∧ x ≠ Byte.backslash ∧ ¬ x < 0x20

/-- What may stand between quotes where only the extent of the string matters. -/
inductive Quotable : Input → Prop
  | nil : Quotable []
  | plain {x : UInt8} {input : Input} : IsPlain x → Quotable input → Quotable (x :: input)
  | escaped {word input : Input} :
      EscapeForm word → Quotable input → Quotable (Byte.backslash :: (word ++ input))

/-- The word of a string. -/
def quoted (word : Input) : Input := Byte.quote :: (word ++ [Byte.quote])

theorem skipEscape_eq_ok_iff :
    skipEscape input = .ok rest ↔ ∃ word, EscapeForm word ∧ input = word ++ rest := by
  constructor
  · intro h
    unfold skipEscape at h
    split at h
    · cases h
    split at h
    · rename_i d hletter
      cases h
      obtain ⟨l, hmem, rfl⟩ := escapedChar?_eq_some_iff.1 hletter
      exact ⟨_, .letter hmem, rfl⟩
    split_ifs at h with hu
    rename_i x tail _ hnone
    cases hhex : readHex tail with
    | error flaw =>
      rw [hhex] at h
      cases h
    | ok read =>
      rw [hhex] at h
      cases h
      obtain ⟨digits, hdigits, rfl⟩ := readHex_eq_ok_iff.1 hhex
      exact ⟨_, .number hdigits, by rw [hu, List.cons_append]⟩
  · rintro ⟨_, hescape, rfl⟩
    cases hescape with
    | letter hmem =>
      have hletter := escapedChar?_eq_some_iff.2 ⟨_, hmem, rfl⟩
      simp only [List.cons_append, List.nil_append, skipEscape, hletter]
    | @number digits n hdigits =>
      show (readHex (digits ++ rest)).map _ = .ok rest
      rw [readHex_eq_ok_iff.2 ⟨_, hdigits, rfl⟩]
      rfl

theorem skipText_eq_ok_iff :
    skipText input = .ok rest ↔ ∃ word, Quotable word ∧ input = word ++ Byte.quote :: rest := by
  constructor
  · intro h
    fun_induction skipText input with
    | case1 => cases h
    | case2 =>
      cases h
      exact ⟨[], .nil, rfl⟩
    | case3 rest' left hescape hquote ih =>
      obtain ⟨word, hword, rfl⟩ := ih h
      obtain ⟨escape, hform, rfl⟩ := skipEscape_eq_ok_iff.1 hescape
      exact ⟨_, .escaped hform hword, by simp⟩
    | case4 => cases h
    | case5 => cases h
    | case6 x rest' hquote hbackslash hcontrol ih =>
      obtain ⟨word, hword, rfl⟩ := ih h
      exact ⟨_, .plain ⟨hquote, hbackslash, hcontrol⟩ hword, rfl⟩
  · rintro ⟨word, hword, rfl⟩
    induction hword with
    | nil =>
      rw [List.nil_append, skipText, if_pos rfl]
    | plain hplain _ ih =>
      rw [List.cons_append, skipText, if_neg hplain.1, if_neg hplain.2.1, if_neg hplain.2.2, ih]
    | @escaped word input hform _ ih =>
      have hescape : skipEscape (word ++ (input ++ Byte.quote :: rest)) =
          .ok (input ++ Byte.quote :: rest) := skipEscape_eq_ok_iff.2 ⟨word, hform, rfl⟩
      rw [List.cons_append, List.append_assoc, skipText, if_neg (by decide), if_pos rfl]
      split
      · rename_i left he
        cases hescape.symm.trans he
        exact ih
      · rename_i he
        cases hescape.symm.trans he

theorem Quotable.plain_append (hfront : ∀ x ∈ front, IsPlain x) (h : Quotable input) :
    Quotable (front ++ input) := by
  induction front with
  | nil => exact h
  | cons x front ih =>
    obtain ⟨hx, hfront⟩ := List.forall_mem_cons.1 hfront
    exact .plain hx (ih hfront)

/-- The bytes of a character are its number, or above all bytes that mean anything. -/
theorem toNat_of_mem_utf8EncodeChar (h : x ∈ String.utf8EncodeChar c) :
    x.toNat = c.toNat ∨ 0x80 ≤ x.toNat := by
  have hval : c.val.toNat = c.toNat := rfl
  by_cases hsmall : c.toNat < 0x80
  · rw [utf8EncodeChar_of_ascii hsmall, List.mem_singleton] at h
    left
    rw [h, UInt8.toNat_ofNat']
    omega
  · right
    rw [String.utf8EncodeChar.eq_def] at h
    dsimp only at h
    split_ifs at h
    · omega
    · simp only [List.mem_cons, List.not_mem_nil, or_false] at h
      rcases h with rfl | rfl <;> rw [UInt8.toNat_ofNat'] <;> omega
    · simp only [List.mem_cons, List.not_mem_nil, or_false] at h
      rcases h with rfl | rfl | rfl <;> rw [UInt8.toNat_ofNat'] <;> omega
    · simp only [List.mem_cons, List.not_mem_nil, or_false] at h
      rcases h with rfl | rfl | rfl | rfl <;> rw [UInt8.toNat_ofNat'] <;> omega

theorem isPlain_of_mem_utf8EncodeChar (hquote : c ≠ '"') (hbackslash : c ≠ '\\')
    (hcontrol : 0x20 ≤ c.toNat) (h : x ∈ String.utf8EncodeChar c) : IsPlain x := by
  have hx := toNat_of_mem_utf8EncodeChar h
  have hne : ∀ d : Char, d.toNat < 0x80 → c ≠ d → x ≠ UInt8.ofNat d.toNat := by
    rintro d hd hcd rfl
    rw [UInt8.toNat_ofNat', Nat.mod_eq_of_lt (by omega)] at hx
    rcases hx with heq | hlarge
    · exact hcd (Char.toNat_inj.1 heq.symm)
    · omega
  refine ⟨hne '"' (by decide) hquote, hne '\\' (by decide) hbackslash, ?_⟩
  rw [UInt8.lt_iff_toNat_lt]
  show ¬ x.toNat < 0x20
  omega

theorem Denotes.quotable (h : Denotes word chars) : Quotable word := by
  induction h with
  | nil => exact .nil
  | plain hquote hbackslash hcontrol _ ih =>
    exact ih.plain_append fun x hx => isPlain_of_mem_utf8EncodeChar hquote hbackslash hcontrol hx
  | escaped hescape _ ih =>
    cases hescape with
    | letter hmem => exact .escaped (.letter hmem) ih
    | number hdigits => exact .escaped (.number hdigits) ih
    | pair hhigh hlow =>
      have hpair := Quotable.escaped (.number hhigh) (.escaped (.number hlow) ih)
      simpa using hpair

end Strings

/-! ### Numbers -/

/-- One or more digits. -/
def Digits (word : Input) : Prop := word ≠ [] ∧ ∀ x ∈ word, Byte.isDigit x = true

/-- Digits in front of the point, where a zero stands alone. -/
inductive Whole : Input → Prop
  | zero : Whole [Byte.zero]
  | digits {x : UInt8} {tail : Input} :
      Byte.isDigit x = true → x ≠ Byte.zero → (∀ y ∈ tail, Byte.isDigit y = true) →
        Whole (x :: tail)

/-- A point and the digits behind it, or nothing. -/
inductive Fraction : Input → Prop
  | none : Fraction []
  | some {digits : Input} : Digits digits → Fraction (Byte.point :: digits)

/-- The signs that an exponent may have. -/
def signs : List Input := [[], [Byte.plus], [Byte.minus]]

/-- An exponent, or nothing. -/
inductive Exponent : Input → Prop
  | none : Exponent []
  | some {mark : UInt8} {sign digits : Input} :
      Byte.isExponentMark mark = true → sign ∈ signs → Digits digits →
        Exponent (mark :: (sign ++ digits))

/-- A number without a sign in front. -/
inductive Unsigned : Input → Prop
  | intro {whole fraction exponent : Input} :
      Whole whole → Fraction fraction → Exponent exponent →
        Unsigned (whole ++ (fraction ++ exponent))

/-- What does not go on with a number. -/
def Ends : Input → Prop
  | [] => True
  | x :: _ => Byte.isDigit x = false ∧ x ≠ Byte.point ∧ Byte.isExponentMark x = false

section Numbers

variable {digits sign word whole fraction exponent input rest : Input} {x : UInt8}

/-- An input is its leading digits and what is behind them. -/
theorem leadingDigits_append_skipDigits (input : Input) :
    leadingDigits input ++ skipDigits input = input :=
  List.takeWhile_append_dropWhile

theorem isDigit_of_mem_leadingDigits (h : x ∈ leadingDigits input) : Byte.isDigit x = true :=
  List.all_eq_true.1 List.all_takeWhile x h

/-- Digits are told from what does not begin with one. -/
theorem digits_append (hdigits : ∀ x ∈ digits, Byte.isDigit x = true)
    (hrest : leadingDigits rest = []) :
    leadingDigits (digits ++ rest) = digits ∧ skipDigits (digits ++ rest) = rest := by
  have hskip := leadingDigits_append_skipDigits rest
  rw [hrest, List.nil_append] at hskip
  unfold leadingDigits skipDigits at *
  rw [List.takeWhile_append_of_pos hdigits, hrest, List.append_nil,
    List.dropWhile_append_of_pos hdigits, hskip]
  exact ⟨rfl, rfl⟩

theorem leadingDigits_eq_nil_of_not_digit (h : Byte.isDigit x = false) :
    leadingDigits (x :: input) = [] := by
  unfold leadingDigits
  rw [List.takeWhile_cons_of_neg (by rw [h]; decide)]

theorem Ends.leadingDigits_eq_nil (h : Ends rest) : leadingDigits rest = [] := by
  cases rest with
  | nil => rfl
  | cons x tail => exact leadingDigits_eq_nil_of_not_digit h.1

theorem isDigit_eq_false_of_isExponentMark (h : Byte.isExponentMark x = true) :
    Byte.isDigit x = false ∧ x ≠ Byte.point := by
  unfold Byte.isExponentMark at h
  rw [decide_eq_true_eq] at h
  rcases h with rfl | rfl <;> decide

/-- Digits that are not told from a sign would be one. -/
theorem exponentSign_append (hsign : sign ∈ signs)
    (hdigits : Digits digits) : (exponentSign (sign ++ (digits ++ rest))).2 = digits ++ rest := by
  simp only [signs, List.mem_cons, List.not_mem_nil, or_false] at hsign
  rcases hsign with rfl | rfl | rfl
  · obtain ⟨hne, hall⟩ := hdigits
    cases digits with
    | nil => exact absurd rfl hne
    | cons x tail =>
      have hx := hall x (List.mem_cons_self ..)
      unfold exponentSign
      split
      · rename_i heq
        cases heq
        exact absurd hx (by decide)
      · rename_i heq
        cases heq
        exact absurd hx (by decide)
      · rfl
  · rfl
  · rfl

theorem exists_exponentSign (input : Input) :
    ∃ sign ∈ signs, input = sign ++ (exponentSign input).2 := by
  unfold exponentSign
  split
  · exact ⟨[Byte.plus], by decide, rfl⟩
  · exact ⟨[Byte.minus], by decide, rfl⟩
  · exact ⟨[], by decide, rfl⟩

theorem skipExponent_append (hsign : sign ∈ signs)
    (hdigits : Digits digits) (hrest : Ends rest) :
    skipExponent (sign ++ (digits ++ rest)) = .ok rest := by
  unfold skipExponent
  rw [exponentSign_append hsign hdigits]
  obtain ⟨hne, hall⟩ := hdigits
  cases digits with
  | nil => exact absurd rfl hne
  | cons x tail =>
    obtain ⟨hx, htail⟩ := List.forall_mem_cons.1 hall
    rw [List.cons_append]
    dsimp only
    rw [if_pos hx, (digits_append htail hrest.leadingDigits_eq_nil).2]

theorem exists_exponent_of_skipExponent {mark : UInt8} (hmark : Byte.isExponentMark mark = true)
    (h : skipExponent input = .ok rest) :
    ∃ exponent, Exponent exponent ∧ mark :: input = exponent ++ rest := by
  unfold skipExponent at h
  obtain ⟨sign, hsign, hinput⟩ := exists_exponentSign input
  split at h
  · cases h
  rename_i x tail hbehind
  split_ifs at h with hx
  cases h
  refine ⟨mark :: (sign ++ (x :: leadingDigits tail)), .some hmark hsign ⟨?_, ?_⟩, ?_⟩
  · exact List.cons_ne_nil _ _
  · exact List.forall_mem_cons.2 ⟨hx, fun y hy => isDigit_of_mem_leadingDigits hy⟩
  · rw [hinput, hbehind, List.cons_append, List.append_assoc, List.cons_append,
      leadingDigits_append_skipDigits]

/-- What may follow the digits in front of an exponent or of the end. -/
theorem Exponent.leadingDigits_append (h : Exponent exponent) (hrest : Ends rest) :
    leadingDigits (exponent ++ rest) = [] := by
  cases h with
  | none => exact hrest.leadingDigits_eq_nil
  | some hmark _ _ =>
    exact leadingDigits_eq_nil_of_not_digit (isDigit_eq_false_of_isExponentMark hmark).1

theorem skipFraction_append (hdigits : Digits digits) (hexponent : Exponent exponent)
    (hrest : Ends rest) : skipFraction (digits ++ (exponent ++ rest)) = .ok rest := by
  obtain ⟨hleading, hskip⟩ := digits_append hdigits.2 (hexponent.leadingDigits_append hrest)
  unfold skipFraction
  rw [hleading, hskip]
  cases digits with
  | nil => exact absurd rfl hdigits.1
  | cons x tail =>
    dsimp only
    cases hexponent with
    | none =>
      cases rest with
      | nil => rfl
      | cons y left =>
        rw [List.nil_append]
        dsimp only
        rw [hrest.2.2]
        rfl
    | some hmark hsign hdigits =>
      rw [List.cons_append, List.append_assoc]
      dsimp only
      rw [if_pos hmark, skipExponent_append hsign hdigits hrest]

theorem skipTail_append (hfraction : Fraction fraction) (hexponent : Exponent exponent)
    (hrest : Ends rest) : skipTail (fraction ++ (exponent ++ rest)) = .ok rest := by
  cases hfraction with
  | some hdigits =>
    rw [List.cons_append, skipTail, if_pos rfl, skipFraction_append hdigits hexponent hrest]
  | none =>
    cases hexponent with
    | none =>
      cases rest with
      | nil => rfl
      | cons x tail =>
        rw [List.nil_append, List.nil_append, skipTail, if_neg hrest.2.1, hrest.2.2]
        rfl
    | some hmark hsign hdigits =>
      rw [List.nil_append, List.cons_append, List.append_assoc, skipTail,
        if_neg (isDigit_eq_false_of_isExponentMark hmark).2, if_pos hmark,
        skipExponent_append hsign hdigits hrest]

theorem leadingDigits_tail (hfraction : Fraction fraction) (hexponent : Exponent exponent)
    (hrest : Ends rest) : leadingDigits (fraction ++ (exponent ++ rest)) = [] := by
  cases hfraction with
  | none => exact hexponent.leadingDigits_append hrest
  | some hdigits => rfl

/-- A number is passed over if what follows does not go on with it. -/
theorem skipNumber_append (h : Unsigned word) (hrest : Ends rest) :
    skipNumber (word ++ rest) = .ok rest := by
  cases h with
  | intro hwhole hfraction hexponent =>
    have hleading := leadingDigits_tail hfraction hexponent hrest
    have hskip := skipTail_append hfraction hexponent hrest
    rw [List.append_assoc, List.append_assoc]
    cases hwhole with
    | zero =>
      rw [List.singleton_append, skipNumber, if_pos rfl, hleading]
      exact hskip
    | digits hx hzero htail =>
      rw [List.cons_append, skipNumber, if_neg hzero, if_pos hx, (digits_append htail hleading).2]
      exact hskip

theorem exists_tail_of_skipTail (h : skipTail input = .ok rest) :
    ∃ fraction exponent, Fraction fraction ∧ Exponent exponent ∧
      input = fraction ++ (exponent ++ rest) := by
  unfold skipTail at h
  split at h
  · cases h
    exact ⟨[], [], .none, .none, rfl⟩
  rename_i x tail
  split_ifs at h with hpoint hmark
  · unfold skipFraction at h
    split at h
    · cases h
    rename_i y digits hleading
    have hdigits : Digits (y :: digits) :=
      ⟨List.cons_ne_nil _ _, fun z hz => isDigit_of_mem_leadingDigits (hleading ▸ hz)⟩
    have htail := leadingDigits_append_skipDigits tail
    rw [hleading] at htail
    split at h
    · rename_i hskip
      cases h
      exact ⟨_, [], .some hdigits, .none, by rw [hpoint, ← htail, hskip]; rfl⟩
    · rename_i z left hskip
      rw [hskip] at htail
      split_ifs at h with hmark
      · obtain ⟨exponent, hexponent, heq⟩ := exists_exponent_of_skipExponent hmark h
        exact ⟨_, exponent, .some hdigits, hexponent, by rw [hpoint, ← htail, heq]; rfl⟩
      · cases h
        exact ⟨_, [], .some hdigits, .none, by rw [hpoint, ← htail]; rfl⟩
  · obtain ⟨exponent, hexponent, heq⟩ := exists_exponent_of_skipExponent hmark h
    exact ⟨[], exponent, .none, hexponent, heq⟩
  · cases h
    exact ⟨[], [], .none, .none, rfl⟩

/-- What is passed over as a number is one. -/
theorem exists_unsigned (h : skipNumber input = .ok rest) :
    ∃ word, Unsigned word ∧ input = word ++ rest := by
  unfold skipNumber at h
  split at h
  · cases h
  rename_i x tail
  split_ifs at h with hzero hx
  · split at h
    · obtain ⟨fraction, exponent, hfraction, hexponent, rfl⟩ := exists_tail_of_skipTail h
      exact ⟨_, .intro .zero hfraction hexponent, by simp [hzero]⟩
    · cases h
  · obtain ⟨fraction, exponent, hfraction, hexponent, hskip⟩ := exists_tail_of_skipTail h
    have htail := leadingDigits_append_skipDigits tail
    have hwhole : Whole (x :: leadingDigits tail) :=
      .digits hx hzero fun y hy => isDigit_of_mem_leadingDigits hy
    refine ⟨_, .intro hwhole hfraction hexponent, ?_⟩
    rw [List.append_assoc, List.append_assoc, ← hskip, List.cons_append, htail]

end Numbers

/-! ### Single words -/

/-- The word of a value that is no list and no object. -/
inductive Scalar : Input → Prop
  | null : Scalar (Byte.n :: restOfNull)
  | ofTrue : Scalar (Byte.t :: restOfTrue)
  | ofFalse : Scalar (Byte.f :: restOfFalse)
  | text {word : Input} : Quotable word → Scalar (quoted word)
  | number {word : Input} : Unsigned word → Scalar word
  | negative {word : Input} : Unsigned word → Scalar (Byte.minus :: word)

/-- Whether a byte is neither a blank nor one that closes a bracket. -/
def Begins (x : UInt8) : Prop := Byte.isBlank x = false ∧ ∀ b : Bracket, x ≠ b.closing

section Scalars

variable {word input rest : Input} {x : UInt8}

theorem readWord_eq_ok_iff : readWord word input = .ok rest ↔ input = word ++ rest := by
  induction word generalizing input with
  | nil =>
    rw [List.nil_append]
    exact ⟨fun h => Except.ok.inj h, fun h => congrArg Except.ok h⟩
  | cons x word ih =>
    cases input with
    | nil =>
      rw [readWord, List.cons_append]
      exact iff_of_false (by rintro ⟨⟩) (List.cons_ne_nil _ _).symm
    | cons y input =>
      rw [readWord, List.cons_append, List.cons.injEq]
      split_ifs with hxy
      · rw [ih, and_iff_right hxy.symm]
      · exact iff_of_false (by rintro ⟨⟩) fun h => hxy h.1.symm

theorem Whole.exists_digit (h : Whole word) :
    ∃ x tail, word = x :: tail ∧ Byte.isDigit x = true := by
  cases h with
  | zero => exact ⟨_, _, rfl, by decide⟩
  | digits hx _ _ => exact ⟨_, _, rfl, hx⟩

theorem Unsigned.exists_digit (h : Unsigned word) :
    ∃ x tail, word = x :: tail ∧ Byte.isDigit x = true := by
  cases h with
  | intro hwhole _ _ =>
    obtain ⟨x, tail, rfl, hx⟩ := hwhole.exists_digit
    exact ⟨x, _, List.cons_append, hx⟩

theorem ne_of_isDigit {y : UInt8} (hx : Byte.isDigit x = true) (hy : Byte.isDigit y = false) :
    x ≠ y := by
  rintro rfl
  rw [hx] at hy
  cases hy

theorem begins_iff :
    Begins x ↔ Byte.isBlank x = false ∧ x ≠ Byte.closeBracket ∧ x ≠ Byte.closeBrace := by
  constructor
  · rintro ⟨hblank, hclosing⟩
    exact ⟨hblank, hclosing .list, hclosing .object⟩
  · rintro ⟨hblank, hbracket, hbrace⟩
    refine ⟨hblank, ?_⟩
    rintro (_ | _)
    · exact hbracket
    · exact hbrace

/-- A single word is told by its first byte, and passed over. -/
theorem Scalar.exists_first (h : Scalar word) :
    ∃ x tail, word = x :: tail ∧ Begins x ∧ Bracket.opened? x = none ∧
      ∀ rest, Ends rest → skipScalar x (tail ++ rest) = .ok rest := by
  cases h with
  | null =>
    exact ⟨_, _, rfl, begins_iff.2 (by decide), rfl, fun rest _ => readWord_eq_ok_iff.2 rfl⟩
  | ofTrue =>
    exact ⟨_, _, rfl, begins_iff.2 (by decide), rfl, fun rest _ => readWord_eq_ok_iff.2 rfl⟩
  | ofFalse =>
    exact ⟨_, _, rfl, begins_iff.2 (by decide), rfl, fun rest _ => readWord_eq_ok_iff.2 rfl⟩
  | text hword =>
    exact ⟨_, _, rfl, begins_iff.2 (by decide), rfl, fun rest _ =>
      skipText_eq_ok_iff.2 ⟨_, hword, by simp⟩⟩
  | negative hword =>
    exact ⟨_, _, rfl, begins_iff.2 (by decide), rfl, fun rest hrest =>
      skipNumber_append hword hrest⟩
  | number hword =>
    obtain ⟨x, tail, rfl, hx⟩ := hword.exists_digit
    have hne : ∀ y, Byte.isDigit y = false → x ≠ y := fun y hy => ne_of_isDigit hx hy
    refine ⟨x, tail, rfl, begins_iff.2 ⟨(isBlank_of_isDigit hx).1, hne _ (by decide),
      hne _ (by decide)⟩, ?_, fun rest hrest => ?_⟩
    · unfold Bracket.opened?
      rw [if_neg (hne _ (by decide)), if_neg (hne _ (by decide))]
    · unfold skipScalar
      rw [if_neg (hne _ (by decide)), if_neg (hne _ (by decide)), if_neg (hne _ (by decide)),
        if_neg (hne _ (by decide)), if_neg (hne _ (by decide)), if_pos hx]
      exact skipNumber_append hword hrest

/-- What is passed over as a single word is one. -/
theorem exists_scalar (h : skipScalar x input = .ok rest) :
    ∃ tail, Scalar (x :: tail) ∧ input = tail ++ rest := by
  unfold skipScalar at h
  split_ifs at h with hn ht hf hquote hminus hdigit
  · exact ⟨_, hn ▸ .null, readWord_eq_ok_iff.1 h⟩
  · exact ⟨_, ht ▸ .ofTrue, readWord_eq_ok_iff.1 h⟩
  · exact ⟨_, hf ▸ .ofFalse, readWord_eq_ok_iff.1 h⟩
  · obtain ⟨word, hword, rfl⟩ := skipText_eq_ok_iff.1 h
    exact ⟨word ++ [Byte.quote], by rw [hquote]; exact .text hword, by simp⟩
  · obtain ⟨word, hword, rfl⟩ := exists_unsigned h
    exact ⟨word, hminus ▸ .negative hword, rfl⟩
  · obtain ⟨word, hword, heq⟩ := exists_unsigned h
    obtain ⟨y, tail, rfl, -⟩ := hword.exists_digit
    obtain ⟨rfl, rfl⟩ := List.cons.inj heq
    exact ⟨tail, .number hword, rfl⟩

end Scalars

end Json

end Catalogue
