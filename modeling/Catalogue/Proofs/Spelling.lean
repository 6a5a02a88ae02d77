import Catalogue.Proofs.Written
import Mathlib.Tactic.Common

/-!
# How JSON may be spelled

The same text has many spellings: blanks may stand in front of every token, and characters of a
string may be escaped in more than one way. `Leading` says which tokens an input begins with,
however they are spelled. For the readers of the pieces of a record there is one lemma each: what
they accept is what begins with the tokens of that piece, and they leave what stands behind.
-/

namespace Catalogue

/-- A character is read just where its bytes stand. -/
theorem Utf8.decode?_eq_some_iff {input rest : List UInt8} {c : Char} :
    decode? input = some (c, rest) ↔ input = String.utf8EncodeChar c ++ rest := by
  constructor
  · intro h
    unfold decode? at h
    obtain ⟨d, hd, he⟩ := Option.map_eq_some_iff.1 h
    cases he
    obtain ⟨tail, htail⟩ := ByteArray.exists_of_utf8DecodeChar?_eq_some hd
    have htake : input.take 4 = String.utf8EncodeChar c ++ tail.data.toList := by
      have h := congrArg (fun bytes => bytes.data.toList) htail
      simpa using h
    have hinput : input = String.utf8EncodeChar c ++ (tail.data.toList ++ input.drop 4) := by
      rw [← List.append_assoc, ← htake, List.take_append_drop]
    have hdrop : input.drop c.utf8Size = tail.data.toList ++ input.drop 4 := by
      conv_lhs => rw [hinput]
      exact List.drop_left' (String.length_utf8EncodeChar c)
    rw [hdrop]
    exact hinput
  · rintro rfl
    exact decode?_append c rest

namespace Json

/-! ### Strings -/

/-- A hexadecimal digit, in either case, and its value. -/
inductive HexDigit : UInt8 → Nat → Prop
  | decimal {x : UInt8} {n : Nat} : n < 10 → x.toNat = '0'.toNat + n → HexDigit x n
  | upper {x : UInt8} {n : Nat} : n < 6 → x.toNat = 'A'.toNat + n → HexDigit x (10 + n)
  | lower {x : UInt8} {n : Nat} : n < 6 → x.toNat = 'a'.toNat + n → HexDigit x (10 + n)

/-- Four hexadecimal digits and their value. -/
inductive Hex : Input → Nat → Prop
  | intro {a b c d : UInt8} {i j k l : Nat} :
      HexDigit a i → HexDigit b j → HexDigit c k → HexDigit d l →
        Hex [a, b, c, d] (0x1000 * i + 0x100 * j + 0x10 * k + l)

/-- The letters that stand for a character behind a backslash. -/
def letters : List (Char × Char) :=
  [('"', '"'), ('\\', '\\'), ('/', '/'), ('b', '\x08'), ('f', '\x0C'), ('n', '\n'), ('r', '\r'),
    ('t', '\t')]

/-- What may stand behind a backslash, and the character that it stands for: a letter, the number of
a character, or the two halves of one that four digits do not reach. -/
inductive Escape : Input → Char → Prop
  | letter {l c : Char} : (l, c) ∈ letters → Escape [UInt8.ofNat l.toNat] c
  | number {digits : Input} {c : Char} : Hex digits c.toNat → Escape (Byte.u :: digits) c
  | pair {digits digits' : Input} {high low : Nat} {c : Char} :
      Hex digits high → Hex digits' low → 0xD800 ≤ high → high < 0xDC00 → 0xDC00 ≤ low →
        low < 0xE000 → c.toNat = 0x10000 + 0x400 * (high - 0xD800) + (low - 0xDC00) →
          Escape (Byte.u :: (digits ++ Byte.backslash :: Byte.u :: digits')) c

/-- What may stand between quotes, and the characters that it stands for. -/
inductive Denotes : Input → List Char → Prop
  | nil : Denotes [] []
  | plain {c : Char} {input : Input} {chars : List Char} :
      c ≠ '"' → c ≠ '\\' → 0x20 ≤ c.toNat → Denotes input chars →
        Denotes (String.utf8EncodeChar c ++ input) (c :: chars)
  | escaped {c : Char} {word input : Input} {chars : List Char} :
      Escape word c → Denotes input chars →
        Denotes (Byte.backslash :: (word ++ input)) (c :: chars)

theorem hexDigit?_eq_some_iff {x : UInt8} {n : Nat} : hexDigit? x = some n ↔ HexDigit x n := by
  have h0 : '0'.toNat = 0x30 := rfl
  have hA : 'A'.toNat = 0x41 := rfl
  have ha : 'a'.toNat = 0x61 := rfl
  unfold hexDigit?
  simp only [UInt8.le_iff_toNat_le, UInt8.reduceToNat]
  constructor
  · intro h
    split_ifs at h with hdecimal hupper hlower
    · cases h
      exact .decimal (by omega) (by omega)
    · cases h
      rw [Nat.add_comm]
      exact .upper (by omega) (by omega)
    · cases h
      rw [Nat.add_comm]
      exact .lower (by omega) (by omega)
  · rintro (⟨hn, hx⟩ | ⟨hn, hx⟩ | ⟨hn, hx⟩)
    · rw [if_pos (by omega)]
      congr 1
      omega
    · rw [if_neg (by omega), if_pos (by omega)]
      congr 1
      omega
    · rw [if_neg (by omega), if_neg (by omega), if_pos (by omega)]
      congr 1
      omega

theorem HexDigit.lt {x : UInt8} {n : Nat} (h : HexDigit x n) : n < 16 := by
  cases h <;> omega

theorem Hex.lt {digits : Input} {n : Nat} (h : Hex digits n) : n < 0x10000 := by
  cases h with
  | intro ha hb hc hd =>
    have := ha.lt
    have := hb.lt
    have := hc.lt
    have := hd.lt
    omega

theorem readHex_eq_ok_iff {input rest : Input} {n : Nat} :
    readHex input = .ok (n, rest) ↔ ∃ digits, Hex digits n ∧ input = digits ++ rest := by
  constructor
  · intro h
    unfold readHex at h
    split at h
    · rename_i a b c d left
      cases hvalue : hexValue? a b c d with
      | none => rw [hvalue] at h; cases h
      | some m =>
        rw [hvalue] at h
        cases h
        unfold hexValue? at hvalue
        simp only [Option.bind_eq_bind, Option.bind_eq_some_iff, Option.pure_def,
          Option.some.injEq, hexDigit?_eq_some_iff] at hvalue
        obtain ⟨i, ha, j, hb, k, hc, l, hd, hm⟩ := hvalue
        have hsum : n = 0x1000 * i + 0x100 * j + 0x10 * k + l := by omega
        rw [hsum]
        exact ⟨_, .intro ha hb hc hd, rfl⟩
    · cases h
  · rintro ⟨_, ⟨ha, hb, hc, hd⟩, rfl⟩
    rw [← hexDigit?_eq_some_iff] at ha hb hc hd
    simp only [List.cons_append, List.nil_append, readHex, hexValue?, ha, hb, hc, hd,
      Option.bind_eq_bind, Option.bind_some, Option.pure_def, Except.ok.injEq, Prod.mk.injEq,
      and_true]
    omega

theorem escapedChar?_eq_some_iff {x : UInt8} {c : Char} :
    escapedChar? x = some c ↔ ∃ l, (l, c) ∈ letters ∧ x = UInt8.ofNat l.toNat := by
  constructor
  · intro h
    unfold escapedChar? at h
    split at h
    · cases h; exact ⟨'"', by decide, rfl⟩
    · cases h; exact ⟨'\\', by decide, rfl⟩
    · cases h; exact ⟨'/', by decide, rfl⟩
    · cases h; exact ⟨'b', by decide, rfl⟩
    · cases h; exact ⟨'f', by decide, rfl⟩
    · cases h; exact ⟨'n', by decide, rfl⟩
    · cases h; exact ⟨'r', by decide, rfl⟩
    · cases h; exact ⟨'t', by decide, rfl⟩
    · cases h
  · rintro ⟨l, hmem, rfl⟩
    simp only [letters, List.mem_cons, Prod.mk.injEq, List.not_mem_nil, or_false] at hmem
    rcases hmem with ⟨rfl, rfl⟩ | ⟨rfl, rfl⟩ | ⟨rfl, rfl⟩ | ⟨rfl, rfl⟩ | ⟨rfl, rfl⟩ | ⟨rfl, rfl⟩ |
      ⟨rfl, rfl⟩ | ⟨rfl, rfl⟩ <;> rfl

theorem toNat_ofNat_of_small {n : Nat} (h : n < 0xD800 ∨ 0xDFFF < n) (hlt : n < 0x110000) :
    (Char.ofNat n).toNat = n := by
  have hvalid : n.isValidChar := by
    unfold Nat.isValidChar
    omega
  rw [Char.ofNat, dif_pos hvalid]
  rfl

theorem toNat_pairChar {high low : Nat} (hhigh : isHighSurrogate high = true)
    (hlow : isLowSurrogate low = true) :
    (pairChar high low).toNat = 0x10000 + 0x400 * (high - 0xD800) + (low - 0xDC00) := by
  unfold isHighSurrogate at hhigh
  unfold isLowSurrogate at hlow
  rw [decide_eq_true_eq] at hhigh hlow
  unfold pairChar
  rw [toNat_ofNat_of_small (by omega) (by omega)]
  omega

/-- The number of a character is no half of a pair. -/
theorem not_surrogate (c : Char) :
    isLowSurrogate c.toNat = false ∧ isHighSurrogate c.toNat = false := by
  have hvalid : c.toNat < 0xD800 ∨ 0xDFFF < c.toNat ∧ c.toNat < 0x110000 := c.valid
  unfold isLowSurrogate isHighSurrogate
  rw [decide_eq_false_iff_not, decide_eq_false_iff_not]
  omega

theorem readLowSurrogate_eq_ok_iff {high : Nat} {input rest : Input} {c : Char} :
    readLowSurrogate high input = .ok (c, rest) ↔
      ∃ digits low, Hex digits low ∧ isLowSurrogate low = true ∧ c = pairChar high low ∧
        input = Byte.backslash :: Byte.u :: (digits ++ rest) := by
  constructor
  · intro h
    unfold readLowSurrogate at h
    split at h
    · cases h
    split_ifs at h with hbackslash
    split at h
    · cases h
    split_ifs at h with hu
    split at h
    · cases h
    · rename_i low left hhex
      split_ifs at h with hlow
      obtain ⟨hc, hrest⟩ := Prod.mk.inj (Except.ok.inj h)
      obtain ⟨digits, hdigits, hinput⟩ := readHex_eq_ok_iff.1 hhex
      exact ⟨digits, low, hdigits, hlow, hc.symm, by rw [hbackslash, hu, hinput, hrest]⟩
  · rintro ⟨digits, low, hdigits, hlow, hc, rfl⟩
    unfold readLowSurrogate
    dsimp only
    rw [if_pos rfl, if_pos rfl, readHex_eq_ok_iff.2 ⟨digits, hdigits, rfl⟩]
    dsimp only
    rw [if_pos hlow, hc]

theorem exists_escape_of_readNumbered {input rest : Input} {c : Char}
    (h : readNumbered input = .ok (c, rest)) :
    ∃ word, Escape (Byte.u :: word) c ∧ input = word ++ rest := by
  unfold readNumbered at h
  split at h
  · cases h
  rename_i n left hhex
  obtain ⟨digits, hdigits, rfl⟩ := readHex_eq_ok_iff.1 hhex
  split_ifs at h with hlow hhigh
  · obtain ⟨digits', low, hdigits', hlow', hc, rfl⟩ := readLowSurrogate_eq_ok_iff.1 h
    have hnumber := toNat_pairChar hhigh hlow'
    rw [← hc] at hnumber
    unfold isHighSurrogate at hhigh
    unfold isLowSurrogate at hlow'
    rw [decide_eq_true_eq] at hhigh hlow'
    refine ⟨_, .pair hdigits hdigits' hhigh.1 (by omega) hlow'.1 (by omega) hnumber, ?_⟩
    simp
  · cases h
    have hlt := hdigits.lt
    have hnumber : (Char.ofNat n).toNat = n := by
      unfold isLowSurrogate at hlow
      unfold isHighSurrogate at hhigh
      rw [decide_eq_true_eq] at hlow hhigh
      exact toNat_ofNat_of_small (by omega) (by omega)
    rw [← hnumber] at hdigits
    exact ⟨_, .number hdigits, rfl⟩

theorem readNumbered_of_number {digits : Input} {c : Char} (h : Hex digits c.toNat)
    (rest : Input) : readNumbered (digits ++ rest) = .ok (c, rest) := by
  unfold readNumbered
  rw [readHex_eq_ok_iff.2 ⟨digits, h, rfl⟩]
  dsimp only
  rw [(not_surrogate c).1, (not_surrogate c).2, Char.ofNat_toNat]
  rfl

theorem readNumbered_of_pair {digits digits' : Input} {high low : Nat} (h : Hex digits high)
    (h' : Hex digits' low) (hhigh : isHighSurrogate high = true)
    (hlow : isLowSurrogate low = true) (rest : Input) :
    readNumbered ((digits ++ Byte.backslash :: Byte.u :: digits') ++ rest) =
      .ok (pairChar high low, rest) := by
  have hhigh' : isLowSurrogate high = false := by
    unfold isHighSurrogate at hhigh
    unfold isLowSurrogate
    rw [decide_eq_true_eq] at hhigh
    rw [decide_eq_false_iff_not]
    omega
  rw [List.append_assoc]
  unfold readNumbered
  rw [readHex_eq_ok_iff.2 ⟨digits, h, rfl⟩]
  dsimp only
  rw [hhigh, hhigh']
  exact readLowSurrogate_eq_ok_iff.2 ⟨digits', low, h', hlow, rfl, rfl⟩

theorem readEscape_eq_ok_iff {input rest : Input} {c : Char} :
    readEscape input = .ok (c, rest) ↔ ∃ word, Escape word c ∧ input = word ++ rest := by
  constructor
  · intro h
    unfold readEscape at h
    split at h
    · cases h
    split at h
    · rename_i d hletter
      cases h
      obtain ⟨l, hmem, rfl⟩ := escapedChar?_eq_some_iff.1 hletter
      exact ⟨_, .letter hmem, rfl⟩
    split_ifs at h with hu
    obtain ⟨word, hescape, rfl⟩ := exists_escape_of_readNumbered h
    exact ⟨_, hescape, by rw [hu, List.cons_append]⟩
  · rintro ⟨_, hescape, rfl⟩
    cases hescape with
    | letter hmem =>
      have hletter := escapedChar?_eq_some_iff.2 ⟨_, hmem, rfl⟩
      simp only [List.cons_append, List.nil_append, readEscape, hletter]
    | number hdigits => exact readNumbered_of_number hdigits rest
    | @pair digits digits' high low c hdigits hdigits' h1 h2 h3 h4 hnumber =>
      have hhigh : isHighSurrogate high = true := decide_eq_true ⟨h1, by omega⟩
      have hlow : isLowSurrogate low = true := decide_eq_true ⟨h3, by omega⟩
      have hc : c = pairChar high low := by
        rw [← Char.toNat_inj, hnumber, toNat_pairChar hhigh hlow]
      rw [hc]
      exact readNumbered_of_pair hdigits hdigits' hhigh hlow rest

theorem utf8EncodeChar_of_ascii {c : Char} (h : c.toNat < 0x80) :
    String.utf8EncodeChar c = [UInt8.ofNat c.toNat] := by
  rw [String.utf8EncodeChar.eq_def]
  exact if_pos (show c.toNat ≤ 127 by omega)

/-- What the first byte of a character rules out. -/
theorem plain_of_first {x : UInt8} {c : Char} {input left : Input}
    (h : x :: input = String.utf8EncodeChar c ++ left) (hquote : x ≠ Byte.quote)
    (hbackslash : x ≠ Byte.backslash) (hcontrol : ¬ x < 0x20) :
    c ≠ '"' ∧ c ≠ '\\' ∧ 0x20 ≤ c.toNat := by
  have hfirst : c.toNat < 0x80 → x = UInt8.ofNat c.toNat := by
    intro hsmall
    rw [utf8EncodeChar_of_ascii hsmall] at h
    exact (List.cons.inj h).1
  refine ⟨?_, ?_, ?_⟩
  · rintro rfl
    exact hquote (hfirst (by decide))
  · rintro rfl
    exact hbackslash (hfirst (by decide))
  · by_contra hc
    apply hcontrol
    rw [hfirst (by omega), UInt8.lt_iff_toNat_lt, UInt8.toNat_ofNat']
    show c.toNat % 256 < 32
    omega

theorem readTextFrom_of_denotes {word : Input} {chars : List Char} (h : Denotes word chars)
    (front : List Char) (rest : Input) :
    readTextFrom none front (word ++ Byte.quote :: rest) =
      .ok (String.ofList (front.reverse ++ chars), rest) := by
  induction h generalizing front with
  | nil => rw [List.nil_append, List.append_nil, readTextFrom, if_pos rfl]
  | plain hquote hbackslash hcontrol _ ih =>
    rw [List.append_assoc, readTextFrom_plain front hquote hbackslash hcontrol, ih]
    simp
  | escaped hescape _ ih =>
    rw [List.cons_append, List.append_assoc,
      readTextFrom_backslash front (readEscape_eq_ok_iff.2 ⟨_, hescape, rfl⟩), ih]
    simp

/-- What a string is read from denotes it. Once a byte was no character nothing is read any more. -/
theorem exists_denotes {fault : Option Input} {front : List Char} {input rest : Input} {s : String}
    (h : readTextFrom fault front input = .ok (s, rest)) :
    fault = none ∧ ∃ word chars, Denotes word chars ∧ input = word ++ Byte.quote :: rest ∧
      s = String.ofList (front.reverse ++ chars) := by
  fun_induction readTextFrom fault front input with
  | case1 => cases h
  | case2 =>
    cases h
    exact ⟨rfl, [], [], .nil, rfl, by simp⟩
  | case3 => cases h
  | case4 fault front rest' c left hescape hquote ih =>
    obtain ⟨hfault, word, chars, hdenotes, rfl, rfl⟩ := ih h
    obtain ⟨escape, hword, rfl⟩ := readEscape_eq_ok_iff.1 hescape
    exact ⟨hfault, _, _, .escaped hword hdenotes, by simp, by simp⟩
  | case5 => cases h
  | case6 => cases h
  | case7 fault front x rest' hquote hbackslash hcontrol c left hdecode ih =>
    obtain ⟨hfault, word, chars, hdenotes, rfl, rfl⟩ := ih h
    have hinput := Utf8.decode?_eq_some_iff.1 hdecode
    obtain ⟨hcquote, hcbackslash, hccontrol⟩ :=
      plain_of_first hinput hquote hbackslash hcontrol
    refine ⟨hfault, _, _, .plain hcquote hcbackslash hccontrol hdenotes, ?_, by simp⟩
    rw [hinput, List.append_assoc]
  | case8 fault front x rest' hquote hbackslash hcontrol hdecode ih =>
    obtain ⟨hfault, -⟩ := ih h
    cases fault <;> cases hfault

theorem readText_eq_ok_iff {input rest : Input} {s : String} :
    readText input = .ok (s, rest) ↔
      ∃ word, Denotes word s.toList ∧ input = word ++ Byte.quote :: rest := by
  constructor
  · intro h
    obtain ⟨-, word, chars, hdenotes, hinput, rfl⟩ := exists_denotes h
    refine ⟨word, ?_, hinput⟩
    rw [List.reverse_nil, List.nil_append, String.toList_ofList]
    exact hdenotes
  · rintro ⟨word, hdenotes, rfl⟩
    have hread := readTextFrom_of_denotes hdenotes [] rest
    rwa [List.reverse_nil, List.nil_append, String.ofList_toList] at hread

/-! ### Tokens -/

/-- A token that a record may consist of: a bracket, a comma or a colon, or a string. -/
inductive Token where
  | mark (x : UInt8)
  | text (s : String)

/-- The bytes of a token. A string has as many spellings as there are ways to escape it. -/
inductive Token.Word : Token → Input → Prop
  | mark (x : UInt8) : Word (.mark x) [x]
  | text {word : Input} {s : String} :
      Denotes word s.toList → Word (.text s) (Byte.quote :: (word ++ [Byte.quote]))

/-- What may stand between tokens. -/
def Blank (input : Input) : Prop := ∀ x ∈ input, Byte.isBlank x = true

/-- An input that begins with tokens, each behind any number of blanks, and what is behind them. -/
inductive Leading : List Token → Input → Input → Prop
  | nil (rest : Input) : Leading [] rest rest
  | cons {token : Token} {tokens : List Token} {blanks word input rest : Input} :
      Blank blanks → token.Word word → Leading tokens input rest →
        Leading (token :: tokens) (blanks ++ (word ++ input)) rest

/-- Whether an input consists of tokens, and of blanks in front of each and at the end. -/
def Spells (tokens : List Token) (input : Input) : Prop :=
  ∃ rest, Leading tokens input rest ∧ Blank rest

section Leading

variable {tokens more : List Token} {token : Token} {input mid rest : Input}

theorem Leading.append (h : Leading tokens input mid) (hmore : Leading more mid rest) :
    Leading (tokens ++ more) input rest := by
  induction h with
  | nil => exact hmore
  | cons hblank hword _ ih => exact .cons hblank hword (ih hmore)

theorem leading_append_iff :
    Leading (tokens ++ more) input rest ↔
      ∃ mid, Leading tokens input mid ∧ Leading more mid rest := by
  constructor
  · intro h
    induction tokens generalizing input with
    | nil => exact ⟨input, .nil input, h⟩
    | cons token tokens ih =>
      cases h with
      | cons hblank hword hrest =>
        obtain ⟨mid, hfront, hback⟩ := ih hrest
        exact ⟨mid, .cons hblank hword hfront, hback⟩
  · rintro ⟨mid, hfront, hback⟩
    exact hfront.append hback

theorem leading_cons_iff :
    Leading (token :: tokens) input rest ↔
      ∃ mid, Leading [token] input mid ∧ Leading tokens mid rest := by
  rw [← List.singleton_append, leading_append_iff]

theorem leading_singleton_iff :
    Leading [token] input rest ↔
      ∃ blanks word, Blank blanks ∧ token.Word word ∧ input = blanks ++ (word ++ rest) := by
  constructor
  · rintro (_ | ⟨hblank, hword, ⟨⟩⟩)
    exact ⟨_, _, hblank, hword, rfl⟩
  · rintro ⟨blanks, word, hblank, hword, rfl⟩
    exact .cons hblank hword (.nil rest)

/-- Every token takes input. -/
theorem Leading.length_le (h : Leading tokens input rest) :
    tokens.length + rest.length ≤ input.length := by
  induction h with
  | nil => simp
  | @cons token tokens blanks word input rest _ hword _ ih =>
    have hpos : 0 < word.length := by
      cases hword <;> exact Nat.succ_pos _
    simp only [List.length_cons, List.length_append]
    omega

end Leading

/-! ### Blanks -/

theorem skipBlanks_append {blanks : Input} (h : Blank blanks) (input : Input) :
    skipBlanks (blanks ++ input) = skipBlanks input :=
  List.dropWhile_append_of_pos h

theorem exists_blank_append (input : Input) :
    ∃ blanks, Blank blanks ∧ input = blanks ++ skipBlanks input :=
  ⟨_, List.all_eq_true.1 List.all_takeWhile, List.takeWhile_append_dropWhile.symm⟩

theorem skipBlanks_eq_nil_iff {input : Input} : skipBlanks input = [] ↔ Blank input := by
  constructor
  · intro h
    obtain ⟨blanks, hblank, hinput⟩ := exists_blank_append input
    rw [h, List.append_nil] at hinput
    rwa [hinput]
  · intro h
    have hskip := skipBlanks_append h []
    rwa [List.append_nil] at hskip

theorem skipBlanks_eq_cons_iff {input rest : Input} {x : UInt8} :
    skipBlanks input = x :: rest ↔
      Byte.isBlank x = false ∧ ∃ blanks, Blank blanks ∧ input = blanks ++ x :: rest := by
  constructor
  · intro h
    have hhead := List.head?_dropWhile_not Byte.isBlank input
    rw [show input.dropWhile Byte.isBlank = x :: rest from h] at hhead
    obtain ⟨blanks, hblank, hinput⟩ := exists_blank_append input
    rw [h] at hinput
    exact ⟨hhead, blanks, hblank, hinput⟩
  · rintro ⟨hx, blanks, hblank, rfl⟩
    rw [skipBlanks_append hblank]
    exact List.dropWhile_cons_of_neg (by rw [hx]; decide)

theorem leading_mark_iff {x : UInt8} (hx : Byte.isBlank x = false) {input rest : Input} :
    Leading [.mark x] input rest ↔ skipBlanks input = x :: rest := by
  rw [leading_singleton_iff, skipBlanks_eq_cons_iff]
  constructor
  · rintro ⟨blanks, word, hblank, ⟨⟩, rfl⟩
    exact ⟨hx, blanks, hblank, rfl⟩
  · rintro ⟨-, blanks, hblank, rfl⟩
    exact ⟨blanks, _, hblank, .mark x, rfl⟩

theorem leading_text_iff {s : String} {input rest : Input} :
    Leading [.text s] input rest ↔
      ∃ left, skipBlanks input = Byte.quote :: left ∧ readText left = .ok (s, rest) := by
  rw [leading_singleton_iff]
  constructor
  · rintro ⟨blanks, _, hblank, hword, rfl⟩
    cases hword with
    | text hdenotes =>
      refine ⟨_, skipBlanks_eq_cons_iff.2 ⟨by decide, blanks, hblank, rfl⟩, ?_⟩
      exact readText_eq_ok_iff.2 ⟨_, hdenotes, by simp⟩
  · rintro ⟨left, hskip, hread⟩
    obtain ⟨-, blanks, hblank, rfl⟩ := skipBlanks_eq_cons_iff.1 hskip
    obtain ⟨word, hdenotes, rfl⟩ := readText_eq_ok_iff.1 hread
    exact ⟨blanks, _, hblank, .text hdenotes, by simp⟩

/-! ### The readers of the pieces of a record -/

section Readers

variable {first : Bool} {key s : String} {input mid rest : Input}

/-- What stands in front of a member or an element: nothing if it is the first, else a comma. -/
def separator (first : Bool) : List Token := if first then [] else [.mark Byte.comma]

theorem readTextValue_eq_ok_iff :
    readTextValue input = .ok (s, rest) ↔ Leading [.text s] input rest := by
  rw [leading_text_iff]
  unfold readTextValue
  cases skipBlanks input with
  | nil => simp
  | cons x left =>
    dsimp only
    split_ifs with hquote
    · simp [hquote]
    · simp [hquote]

theorem readColon_eq_ok_iff :
    readColon input = .ok rest ↔ Leading [.mark Byte.colon] input rest := by
  rw [leading_mark_iff (by decide)]
  unfold readColon
  cases skipBlanks input with
  | nil => simp
  | cons x left =>
    dsimp only
    split_ifs with hcolon
    · simp [hcolon]
    · simp [hcolon]

theorem closeList_eq_ok_iff :
    closeList input = .ok rest ↔ Leading [.mark Byte.closeBracket] input rest := by
  rw [leading_mark_iff (by decide)]
  unfold closeList
  cases skipBlanks input with
  | nil => simp
  | cons x left =>
    dsimp only
    split_ifs with hclose hcomma
    · simp [hclose]
    · split
      · simp [hclose]
      · split_ifs <;> simp [hclose]
    · simp [hclose]

theorem readKey_eq_ok_iff {x : UInt8} {next : NextMember} :
    nextMember.readKey x input = .ok next ↔
      x = Byte.quote ∧ ∃ key rest, readText input = .ok (key, rest) ∧ next = .key key rest := by
  unfold nextMember.readKey
  split_ifs with hquote
  · cases readText input with
    | error flaw => simp
    | ok read =>
      obtain ⟨key, left⟩ := read
      simp [hquote, eq_comm]
  · simp [hquote]

theorem nextMember_eq_close_iff :
    nextMember first input = .ok (.close rest) ↔ Leading [.mark Byte.closeBrace] input rest := by
  rw [leading_mark_iff (by decide)]
  have hkey : ∀ x left, nextMember.readKey x left ≠ .ok (.close rest) := by
    intro x left h
    obtain ⟨-, key, after, -, hnext⟩ := readKey_eq_ok_iff.1 h
    cases hnext
  unfold nextMember
  cases skipBlanks input with
  | nil => simp
  | cons x left =>
    dsimp only
    split_ifs with hclose hfirst hcomma
    · simp [hclose]
    · simp [hclose, hkey]
    · split
      · simp [hclose]
      · split_ifs <;> simp [hclose, hkey]
    · simp [hclose]

theorem leading_separator_iff {token : Token} :
    Leading (separator first ++ [token]) input rest ↔
      if first then Leading [token] input rest
      else ∃ mid, skipBlanks input = Byte.comma :: mid ∧ Leading [token] mid rest := by
  cases first with
  | true => exact Iff.rfl
  | false =>
    show Leading [.mark Byte.comma, token] input rest ↔ _
    rw [leading_cons_iff]
    simp only [leading_mark_iff (show Byte.isBlank Byte.comma = false by decide)]
    exact Iff.rfl

/-- A key that is read up to, behind the comma if it is not that of the first member. -/
theorem nextMember_eq_key_iff :
    nextMember first input = .ok (.key key rest) ↔
      Leading (separator first ++ [.text key]) input rest := by
  have hkey : ∀ x left, nextMember.readKey x left = .ok (.key key rest) ↔
      x = Byte.quote ∧ readText left = .ok (key, rest) := by
    intro x left
    rw [readKey_eq_ok_iff]
    constructor
    · rintro ⟨hx, key', rest', hread, hnext⟩
      cases hnext
      exact ⟨hx, hread⟩
    · rintro ⟨hx, hread⟩
      exact ⟨hx, key, rest, hread, rfl⟩
  have hbrace : Byte.closeBrace ≠ Byte.quote ∧ Byte.closeBrace ≠ Byte.comma := by decide
  rw [leading_separator_iff]
  unfold nextMember
  cases hskip : skipBlanks input with
  | nil => cases first <;> simp [leading_text_iff, hskip]
  | cons x left =>
    dsimp only
    by_cases hclose : x = Byte.closeBrace
    · cases first <;> simp [leading_text_iff, hskip, hclose, hbrace]
    rw [if_neg hclose]
    cases first with
    | true => simp [leading_text_iff, hskip, hkey]
    | false =>
      by_cases hcomma : x = Byte.comma
      · simp only [hcomma, leading_text_iff]
        cases hleft : skipBlanks left with
        | nil => simp [hleft]
        | cons y after =>
          by_cases hclose' : y = Byte.closeBrace
          · simp [hleft, hclose', hbrace]
          · simp [hleft, hclose', hkey]
      · simp [hcomma]

/-- An element that is a string, behind the comma if it is not the first. -/
theorem nextElement_text_iff :
    (∃ mid, nextElement first input = .ok (.value mid) ∧ readTextValue mid = .ok (s, rest)) ↔
      Leading (separator first ++ [.text s]) input rest := by
  -- blanks are passed over once more in front of the element, where there are none left
  have hvalue : ∀ {w left : Input} {x : UInt8}, skipBlanks w = x :: left →
      (readTextValue (x :: left) = .ok (s, rest) ↔ Leading [.text s] w rest) := by
    intro w left x hskip
    have hagain : skipBlanks (x :: left) = x :: left :=
      skipBlanks_eq_cons_iff.2 ⟨(skipBlanks_eq_cons_iff.1 hskip).1, [], by simp [Blank], rfl⟩
    rw [readTextValue_eq_ok_iff, leading_text_iff, leading_text_iff, hskip, hagain]
  have hbracket : Byte.closeBracket ≠ Byte.quote ∧ Byte.closeBracket ≠ Byte.comma := by decide
  have hclosed : ∀ {w left : Input}, skipBlanks w = Byte.closeBracket :: left →
      ¬ Leading [.text s] w rest := by
    intro w left hskip
    simp [leading_text_iff, hskip, hbracket]
  rw [leading_separator_iff]
  unfold nextElement
  cases hskip : skipBlanks input with
  | nil => cases first <;> simp [leading_text_iff, hskip]
  | cons x left =>
    dsimp only
    by_cases hclose : x = Byte.closeBracket
    · cases first <;> simp [leading_text_iff, hskip, hclose, hbracket]
    rw [if_neg hclose]
    cases first with
    | true => simp [hvalue hskip]
    | false =>
      by_cases hcomma : x = Byte.comma
      · simp only [hcomma]
        cases hleft : skipBlanks left with
        | nil => simp [leading_text_iff, hleft]
        | cons y after =>
          by_cases hclose' : y = Byte.closeBracket
          · rw [hclose'] at hleft
            simp [hclose', hclosed hleft]
          · simp [hclose', hvalue hleft]
      · simp [hcomma]

end Readers

end Json

end Catalogue
