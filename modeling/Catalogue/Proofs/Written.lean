import Catalogue.Json.Member
import Catalogue.Json.Write
import Mathlib.Data.List.Basic
import Mathlib.Tactic.Common
import Mathlib.Tactic.IntervalCases

/-!
# Reading what was written

A text is written as characters and read as bytes. For each piece that is written there is one
lemma: the reader of that piece, in front of any rest, gives what was written and leaves the rest.

* `Utf8.decode?_append`: a character;
* `Json.readText_between`: a string, character by character (`readTextFrom_escapeChar`);
* `Json.readInt64Value_ofInt`: an integer of 64 bits, in front of a comma or a closing brace.
-/

namespace Catalogue

namespace Utf8

/-- The bytes of characters. -/
def encode (chars : List Char) : List UInt8 := chars.flatMap String.utf8EncodeChar

@[simp] theorem encode_nil : encode [] = [] := rfl

@[simp] theorem encode_cons (c : Char) (chars : List Char) :
    encode (c :: chars) = String.utf8EncodeChar c ++ encode chars := rfl

@[simp] theorem encode_append (front back : List Char) :
    encode (front ++ back) = encode front ++ encode back := List.flatMap_append

theorem bytes_ofList (chars : List Char) : bytes (String.ofList chars) = encode chars := by
  show (String.ofList chars).toByteArray.data.toList = _
  rw [String.toByteArray_ofList]
  exact List.toList_data_toByteArray

/-- A character is read from the front of what follows it. -/
theorem decode?_append (c : Char) (rest : List UInt8) :
    decode? (String.utf8EncodeChar c ++ rest) = some (c, rest) := by
  have hlength : (String.utf8EncodeChar c).length = c.utf8Size := String.length_utf8EncodeChar c
  have hfour : (String.utf8EncodeChar c).length ≤ 4 := hlength ▸ Char.utf8Size_le_four c
  have htake : ((String.utf8EncodeChar c ++ rest).take 4).toByteArray =
      (String.utf8EncodeChar c).toByteArray ++
        (rest.take (4 - (String.utf8EncodeChar c).length)).toByteArray := by
    rw [List.take_append, List.take_of_length_le hfour, List.toByteArray_append]
  unfold decode?
  rw [htake, ByteArray.utf8DecodeChar?_utf8EncodeChar_append, Option.map_some, ← hlength,
    List.drop_left]

/-- The first byte of a character is its number, or above all bytes that mean anything. -/
theorem exists_first_byte (c : Char) :
    ∃ x tail, String.utf8EncodeChar c = x :: tail ∧ (x.toNat = c.toNat ∨ 0xC0 ≤ x.toNat) := by
  have hval : c.val.toNat = c.toNat := rfl
  rw [String.utf8EncodeChar.eq_def]
  dsimp only
  split_ifs
  · refine ⟨_, _, rfl, Or.inl ?_⟩
    rw [UInt8.toNat_ofNat']
    omega
  · refine ⟨_, _, rfl, Or.inr ?_⟩
    rw [UInt8.toNat_ofNat']
    omega
  · refine ⟨_, _, rfl, Or.inr ?_⟩
    rw [UInt8.toNat_ofNat']
    omega
  · refine ⟨_, _, rfl, Or.inr ?_⟩
    rw [UInt8.toNat_ofNat']
    omega

end Utf8

namespace Json

open Utf8

/-! ### Strings -/

/-- Two hexadecimal digits behind two zeros are the number that they were made of. -/
theorem hexValue?_hexChar : ∀ n < 0x20,
    hexValue? 0x30 0x30 (UInt8.ofNat (hexChar (n / 16)).toNat)
      (UInt8.ofNat (hexChar (n % 16)).toNat) = some n := by
  decide

/-- The bytes of the written form of a control character that has no letter. -/
theorem encode_numbered : ∀ n < 0x20,
    encode ['\\', 'u', '0', '0', hexChar (n / 16), hexChar (n % 16)] =
      [Byte.backslash, Byte.u, 0x30, 0x30, UInt8.ofNat (hexChar (n / 16)).toNat,
        UInt8.ofNat (hexChar (n % 16)).toNat] := by
  decide

/-- A letter behind a backslash stands for the character that it was written for. -/
theorem readEscape_letter {c letter : Char} (h : escapeLetter? c = some letter) (rest : Input) :
    readEscape (encode [letter] ++ rest) = .ok (c, rest) := by
  unfold escapeLetter? at h
  split_ifs at h with h1 h2 h3 h4 h5 h6 h7
  · cases h; rw [h1]; rfl
  · cases h; rw [h2]; rfl
  · cases h; rw [h3]; rfl
  · cases h; rw [h4]; rfl
  · cases h; rw [h5]; rfl
  · cases h; rw [h6]; rfl
  · cases h; rw [h7]; rfl

/-- So does its number. -/
theorem readEscape_numbered {c : Char} (h : c.toNat < 0x20) (rest : Input) :
    readEscape (Byte.u :: 0x30 :: 0x30 :: UInt8.ofNat (hexChar (c.toNat / 16)).toNat ::
      UInt8.ofNat (hexChar (c.toNat % 16)).toNat :: rest) = .ok (c, rest) := by
  have hhex : readHex (0x30 :: 0x30 :: UInt8.ofNat (hexChar (c.toNat / 16)).toNat ::
      UInt8.ofNat (hexChar (c.toNat % 16)).toNat :: rest) = .ok (c.toNat, rest) := by
    unfold readHex
    dsimp only
    rw [hexValue?_hexChar _ h]
  have hlow : isLowSurrogate c.toNat = false := by
    unfold isLowSurrogate
    rw [decide_eq_false_iff_not]
    omega
  have hhigh : isHighSurrogate c.toNat = false := by
    unfold isHighSurrogate
    rw [decide_eq_false_iff_not]
    omega
  show readNumbered _ = _
  unfold readNumbered
  rw [hhex]
  dsimp only
  rw [hlow, hhigh, Char.ofNat_toNat]
  rfl

theorem readTextFrom_backslash (front : List Char) {c : Char} {input rest : Input}
    (h : readEscape input = .ok (c, rest)) :
    readTextFrom none front (Byte.backslash :: input) = readTextFrom none (c :: front) rest := by
  rw [readTextFrom, if_neg (by decide), if_pos rfl]
  split
  · rename_i he
    cases h.symm.trans he
    rfl
  · rename_i he
    cases h.symm.trans he

/-- A character that stands for itself is read as what it is. -/
theorem readTextFrom_plain (front : List Char) {c : Char} (hquote : c ≠ '"')
    (hbackslash : c ≠ '\\') (hcontrol : 0x20 ≤ c.toNat) (rest : Input) :
    readTextFrom none front (String.utf8EncodeChar c ++ rest) =
      readTextFrom none (c :: front) rest := by
  obtain ⟨x, tail, hx, hfirst⟩ := exists_first_byte c
  have hne : ∀ d : Char, d.toNat < 0xC0 → c ≠ d → x ≠ UInt8.ofNat d.toNat := by
    rintro d hd hcd rfl
    rw [UInt8.toNat_ofNat', Nat.mod_eq_of_lt (by omega)] at hfirst
    rcases hfirst with heq | hlarge
    · exact hcd (Char.toNat_inj.1 heq.symm)
    · omega
  have hxquote : x ≠ Byte.quote := hne '"' (by decide) hquote
  have hxbackslash : x ≠ Byte.backslash := hne '\\' (by decide) hbackslash
  have hxcontrol : ¬ x < 0x20 := by
    rw [UInt8.lt_iff_toNat_lt]
    show ¬ x.toNat < 0x20
    omega
  have hdecode : decode? (x :: (tail ++ rest)) = some (c, rest) := by
    rw [← List.cons_append, ← hx, decode?_append]
  rw [hx, List.cons_append, readTextFrom, if_neg hxquote, if_neg hxbackslash, if_neg hxcontrol]
  split
  · rename_i he
    cases hdecode.symm.trans he
    rfl
  · rename_i he
    cases hdecode.symm.trans he

/-- Whichever form a character is written in, it is read as what it is. -/
theorem readTextFrom_escapeChar (front : List Char) (c : Char) (rest : Input) :
    readTextFrom none front (encode (escapeChar c) ++ rest) =
      readTextFrom none (c :: front) rest := by
  unfold escapeChar
  split
  · rename_i letter h
    exact readTextFrom_backslash front (readEscape_letter h rest)
  · rename_i h
    split_ifs with hcontrol
    · rw [encode_numbered _ hcontrol]
      exact readTextFrom_backslash front (readEscape_numbered hcontrol rest)
    · have hquote : c ≠ '"' := by rintro rfl; cases h
      have hbackslash : c ≠ '\\' := by rintro rfl; cases h
      rw [encode_cons, encode_nil, List.append_nil]
      exact readTextFrom_plain front hquote hbackslash (by omega) rest

theorem readTextFrom_flatMap (front chars : List Char) (rest : Input) :
    readTextFrom none front (encode (chars.flatMap escapeChar) ++ Byte.quote :: rest) =
      .ok (String.ofList (front.reverse ++ chars), rest) := by
  induction chars generalizing front with
  | nil =>
    rw [List.flatMap_nil, encode_nil, List.nil_append, List.append_nil, readTextFrom, if_pos rfl]
  | cons c chars ih =>
    rw [List.flatMap_cons, encode_append, List.append_assoc, readTextFrom_escapeChar, ih,
      List.reverse_cons, List.append_assoc]
    rfl

/-- What stands between the quotes of a string. -/
def between (text : String) : Input := encode (text.toList.flatMap escapeChar)

theorem encode_writeText (text : String) :
    encode (writeText text) = Byte.quote :: (between text ++ [Byte.quote]) := by
  unfold writeText
  rw [encode_append, encode_cons]
  rfl

/-- **A string is read as it was written.** -/
theorem readText_between (text : String) (rest : Input) :
    readText (between text ++ Byte.quote :: rest) = .ok (text, rest) := by
  unfold readText between
  rw [readTextFrom_flatMap, List.reverse_nil, List.nil_append, String.ofList_toList]

theorem readTextValue_writeText (text : String) (rest : Input) :
    readTextValue (encode (writeText text) ++ rest) = .ok (text, rest) := by
  rw [encode_writeText, List.cons_append, List.append_assoc]
  exact readText_between text rest

/-! ### Integers -/

/-- What may follow a value inside an object: a comma or the closing brace. -/
def Stops : Input → Prop
  | [] => False
  | x :: _ => x = Byte.comma ∨ x = Byte.closeBrace

/-- The byte of a digit. -/
def digitByte (c : Char) : UInt8 := UInt8.ofNat c.toNat

variable {chars : List Char} {rest : Input}

theorem toNat_of_isDigit {c : Char} (h : c.isDigit = true) : 48 ≤ c.toNat ∧ c.toNat ≤ 57 := by
  unfold Char.isDigit at h
  rw [Bool.and_eq_true, decide_eq_true_eq, decide_eq_true_eq] at h
  exact ⟨UInt32.le_iff_toNat_le.1 h.1, UInt32.le_iff_toNat_le.1 h.2⟩

theorem toNat_digitByte {c : Char} (h : c.isDigit = true) : (digitByte c).toNat = c.toNat := by
  have hc := toNat_of_isDigit h
  unfold digitByte
  rw [UInt8.toNat_ofNat']
  omega

theorem isDigit_digitByte {c : Char} (h : c.isDigit = true) :
    Byte.isDigit (digitByte c) = true := by
  have hc := toNat_of_isDigit h
  have hb := toNat_digitByte h
  unfold Byte.isDigit
  rw [decide_eq_true_eq, UInt8.le_iff_toNat_le, UInt8.le_iff_toNat_le, hb]
  exact hc

theorem digitValue_digitByte {c : Char} (h : c.isDigit = true) :
    digitValue (digitByte c) = c.toNat - '0'.toNat := by
  unfold digitValue
  rw [toNat_digitByte h]
  rfl

theorem encode_digits (h : ∀ c ∈ chars, c.isDigit = true) : encode chars = chars.map digitByte := by
  have hone : ∀ c ∈ chars, String.utf8EncodeChar c = [digitByte c] := by
    intro c hc
    have hle := (toNat_of_isDigit (h c hc)).2
    rw [String.utf8EncodeChar.eq_def]
    exact if_pos (show c.toNat ≤ 127 by omega)
  unfold encode
  rw [List.flatMap_congr hone, List.map_eq_flatMap]

/-- Digits are added up as long as the sum has 64 bits. -/
theorem appendDigits_map (h : ∀ c ∈ chars, c.isDigit = true) {n : Nat}
    (hn : Nat.ofDigitChars 10 chars n < 0x10000000000000000) :
    appendDigits n (chars.map digitByte) = (Nat.ofDigitChars 10 chars n, 0) := by
  induction chars generalizing n with
  | nil => rfl
  | cons c chars ih =>
    obtain ⟨hc, hchars⟩ := List.forall_mem_cons.1 h
    rw [Nat.ofDigitChars_cons, Nat.mul_comm] at hn ⊢
    have hle : n * 10 + (c.toNat - '0'.toNat) < 0x10000000000000000 := by
      -- the number only grows with further digits
      rw [Nat.ofDigitChars_eq_ofDigitChars_zero] at hn
      have hpow : 1 ≤ 10 ^ chars.length := Nat.one_le_pow _ _ (by decide)
      have hmul := Nat.le_mul_of_pos_left (n * 10 + (c.toNat - '0'.toNat)) hpow
      omega
    rw [List.map_cons, appendDigits, digitValue_digitByte hc, if_pos hle, ih hchars hn]

/-- The digits of a positive number do not begin with a zero. -/
theorem exists_toDigits {n : Nat} (h : 0 < n) :
    ∃ c chars, Nat.toDigits 10 n = c :: chars ∧ c ≠ '0' := by
  induction n using Nat.strong_induction_on with
  | _ n ih =>
    rw [Nat.toDigits_eq_if (by decide)]
    split_ifs with hlt
    · refine ⟨_, [], rfl, ?_⟩
      interval_cases n <;> decide
    · obtain ⟨c, chars, heq, hc⟩ := ih (n / 10) (by omega) (by omega)
      exact ⟨c, _, by rw [heq]; rfl, hc⟩

theorem leadingDigits_of_stops (h : Stops rest) : leadingDigits rest = [] := by
  cases rest with
  | nil => exact h.elim
  | cons x tail => rcases h with rfl | rfl <;> rfl

theorem skipDigits_of_stops (h : Stops rest) : skipDigits rest = rest := by
  cases rest with
  | nil => exact h.elim
  | cons x tail => rcases h with rfl | rfl <;> rfl

theorem readTail_of_stops (negative : Bool) (n : Nat) (h : Stops rest) :
    readTail negative n 0 rest = .ok (finishWhole negative n, rest) := by
  cases rest with
  | nil => exact h.elim
  | cons x tail => rcases h with rfl | rfl <;> rfl

/-- The digits of a number are read as the number. -/
theorem readNumber_ofNat (negative : Bool) {n : Nat} (hn : n < 0x10000000000000000)
    (h : Stops rest) :
    readNumber negative (encode (Numeral.ofNat n) ++ rest) =
      .ok (finishWhole negative n, rest) := by
  have hdigit : ∀ c ∈ Nat.toDigits 10 n, c.isDigit = true := fun c hc =>
    Nat.isDigit_of_mem_toDigits (by decide) (by decide) hc
  have hsum : Nat.ofDigitChars 10 (Nat.toDigits 10 n) 0 = n := Nat.ofDigitChars_ten_toDigits
  unfold Numeral.ofNat
  rw [encode_digits hdigit]
  rcases Nat.eq_zero_or_pos n with rfl | hpos
  · show readNumber negative (Byte.zero :: rest) = _
    rw [readNumber, if_pos rfl, leadingDigits_of_stops h]
    exact readTail_of_stops negative 0 h
  · obtain ⟨c, chars, heq, hc⟩ := exists_toDigits hpos
    rw [heq] at hdigit hsum ⊢
    obtain ⟨hcdigit, hchars⟩ := List.forall_mem_cons.1 hdigit
    have hbyte : ∀ x ∈ chars.map digitByte, Byte.isDigit x = true := by
      intro x hx
      obtain ⟨d, hd, rfl⟩ := List.mem_map.1 hx
      exact isDigit_digitByte (hchars d hd)
    have hleading : leadingDigits (chars.map digitByte ++ rest) = chars.map digitByte := by
      have hnone := leadingDigits_of_stops h
      unfold leadingDigits at hnone ⊢
      rw [List.takeWhile_append_of_pos hbyte, hnone, List.append_nil]
    have hskip : skipDigits (chars.map digitByte ++ rest) = rest := by
      have hnone := skipDigits_of_stops h
      unfold skipDigits at hnone ⊢
      rw [List.dropWhile_append_of_pos hbyte, hnone]
    have hzero : digitByte c ≠ Byte.zero := by
      intro hz
      apply hc
      rw [← Char.toNat_inj, ← toNat_digitByte hcdigit, hz]
      rfl
    rw [Nat.ofDigitChars_cons, Nat.mul_zero, Nat.zero_add] at hsum
    rw [List.map_cons, List.cons_append, readNumber, if_neg hzero,
      if_pos (isDigit_digitByte hcdigit), hleading, hskip, digitValue_digitByte hcdigit,
      appendDigits_map hchars (by omega), hsum]
    exact readTail_of_stops negative n h

/-- An integer of 64 bits behind its sign. -/
theorem toInt64_whole (id : Int64) (rest : Input) :
    (Number.whole id.toInt).toInt64 rest = .ok (id, rest) := by
  have hrange : Numeral.Range.int64.holds id.toInt = true := by
    have hleast := id.le_toInt
    have hgreatest := id.toInt_lt
    unfold Numeral.Range.holds Numeral.Range.int64
    rw [Bool.and_eq_true, decide_eq_true_eq, decide_eq_true_eq]
    exact ⟨hleast, Int.le_of_lt_add_one hgreatest⟩
  unfold Number.toInt64
  dsimp only
  rw [if_pos hrange, Int64.ofInt_toInt]

/-- A digit is neither a blank nor a sign. -/
theorem isBlank_of_isDigit {x : UInt8} (h : Byte.isDigit x = true) :
    Byte.isBlank x = false ∧ x ≠ Byte.minus := by
  have hne : ∀ y, Byte.isDigit y = false → x ≠ y := by
    rintro y hy rfl
    rw [h] at hy
    cases hy
  refine ⟨?_, hne _ (by decide)⟩
  unfold Byte.isBlank
  rw [decide_eq_false_iff_not]
  rintro (hx | hx | hx | hx) <;> exact hne _ (by decide) hx

theorem exists_encode_ofNat (n : Nat) :
    ∃ x tail, encode (Numeral.ofNat n) = x :: tail ∧ Byte.isDigit x = true := by
  have hdigit : ∀ c ∈ Nat.toDigits 10 n, c.isDigit = true := fun c hc =>
    Nat.isDigit_of_mem_toDigits (by decide) (by decide) hc
  unfold Numeral.ofNat
  rw [encode_digits hdigit]
  cases hn : Nat.toDigits 10 n with
  | nil => exact absurd hn Nat.toDigits_ne_nil
  | cons c chars =>
    rw [hn] at hdigit
    exact ⟨_, _, rfl, isDigit_digitByte (hdigit c (List.mem_cons_self ..))⟩

/-- **An integer is read as it was written**, if a comma or a closing brace follows. -/
theorem readInt64Value_ofInt (id : Int64) (h : Stops rest) :
    readInt64Value (encode (Numeral.ofInt id.toInt) ++ rest) = .ok (id, rest) := by
  have hleast := id.le_toInt
  have hgreatest := id.toInt_lt
  have hwhole := toInt64_whole id rest
  cases hid : id.toInt with
  | ofNat n =>
    rw [hid] at hwhole hgreatest
    have hlt : n < 0x10000000000000000 := by
      have hn : (Int.ofNat n : Int) = n := rfl
      omega
    have hread := readNumber_ofNat false hlt h
    obtain ⟨x, tail, hx, hdigit⟩ := exists_encode_ofNat n
    obtain ⟨hblank, hminus⟩ := isBlank_of_isDigit hdigit
    show readInt64Value (encode (Numeral.ofNat n) ++ rest) = _
    rw [hx] at hread ⊢
    unfold readInt64Value skipBlanks
    rw [List.cons_append, List.dropWhile_cons_of_neg (by rw [hblank]; decide)]
    dsimp only
    rw [if_neg hminus, if_pos hdigit, ← List.cons_append, hread]
    exact hwhole
  | negSucc n =>
    rw [hid] at hwhole hleast
    have hle : n + 1 ≤ 0x8000000000000000 := by
      have hn : (Int.negSucc n : Int) = -(n + 1 : Nat) := rfl
      omega
    have hread := readNumber_ofNat true (n := n + 1) (by omega) h
    show readInt64Value.convert (readNumber true (encode (Numeral.ofNat (n + 1)) ++ rest)) = _
    rw [hread]
    unfold finishWhole
    rw [if_pos rfl, if_pos ⟨by omega, hle⟩]
    exact hwhole

end Json

end Catalogue
