import Catalogue.Json.Scan
import Catalogue.Text.Utf8

/-!
# Strings of a JSON text

`readText` reads a string behind its opening quote. Escapes stand for characters, those of the upper
planes for a pair of surrogates. Bytes that are not UTF-8 are found out at the closing quote, and
the fault then lies at the first of them. `skipText` passes over a string of which only the extent
matters: it looks at the form of escapes and not at what they or the bytes between them stand for.
-/

namespace Catalogue.Json

/-- The value of a hexadecimal digit. -/
def hexDigit? (x : UInt8) : Option Nat :=
  if 0x30 ≤ x ∧ x ≤ 0x39 then some (x.toNat - 0x30)
  else if 0x41 ≤ x ∧ x ≤ 0x46 then some (x.toNat - 0x41 + 10)
  else if 0x61 ≤ x ∧ x ≤ 0x66 then some (x.toNat - 0x61 + 10)
  else none

/-- The value of four hexadecimal digits. -/
def hexValue? (a b c d : UInt8) : Option Nat := do
  let a ← hexDigit? a
  let b ← hexDigit? b
  let c ← hexDigit? c
  let d ← hexDigit? d
  return ((a * 16 + b) * 16 + c) * 16 + d

/-- Reads four hexadecimal digits. -/
def readHex : Input → Except Flaw (Nat × Input)
  | a :: b :: c :: d :: rest =>
    match hexValue? a b c d with
    | some n => .ok (n, rest)
    | none => .error (.after .invalidEscape rest)
  | _ => .error (.after .endInString [])

theorem length_readHex_lt {input rest : Input} {n : Nat} (h : readHex input = .ok (n, rest)) :
    rest.length < input.length := by
  unfold readHex at h
  split at h
  · split at h
    · cases h; simp only [List.length_cons]; omega
    · cases h
  · cases h

/-- Whether a number is the first half of a surrogate pair. -/
def isHighSurrogate (n : Nat) : Bool := 0xD800 ≤ n ∧ n ≤ 0xDBFF

/-- Whether a number is the second half of a surrogate pair. -/
def isLowSurrogate (n : Nat) : Bool := 0xDC00 ≤ n ∧ n ≤ 0xDFFF

/-- The character of a surrogate pair. -/
def pairChar (high low : Nat) : Char :=
  Char.ofNat ((high - 0xD800) * 0x400 + (low - 0xDC00) + 0x10000)

/-- Reads the second half of a surrogate pair, which has to follow the first at once. -/
def readLowSurrogate (high : Nat) : Input → Except Flaw (Char × Input)
  | [] => .error (.after .endInString [])
  | x :: rest =>
    if x = Byte.backslash then
      match rest with
      | [] => .error (.after .endInString [])
      | y :: left =>
        if y = Byte.u then
          match readHex left with
          | .error flaw => .error flaw
          | .ok (low, left) =>
            if isLowSurrogate low then .ok (pairChar high low, left)
            else .error (.after .loneSurrogate left)
        else .error (.after .unfinishedSurrogatePair left)
    else .error (.after .unfinishedSurrogatePair rest)

/-- Reads the number of a character behind its mark. -/
def readNumbered (input : Input) : Except Flaw (Char × Input) :=
  match readHex input with
  | .error flaw => .error flaw
  | .ok (n, rest) =>
    if isLowSurrogate n then .error (.after .loneSurrogate rest)
    else if isHighSurrogate n then readLowSurrogate n rest
    else .ok (Char.ofNat n, rest)

/-- The character that a single letter behind a backslash stands for. -/
def escapedChar? (x : UInt8) : Option Char :=
  match x with
  | Byte.quote => some '"'
  | Byte.backslash => some '\\'
  | Byte.slash => some '/'
  | Byte.b => some '\x08'
  | Byte.f => some '\x0C'
  | Byte.n => some '\n'
  | Byte.r => some '\r'
  | Byte.t => some '\t'
  | _ => none

/-- Reads an escape behind its backslash. -/
def readEscape : Input → Except Flaw (Char × Input)
  | [] => .error (.after .endInString [])
  | x :: rest =>
    match escapedChar? x with
    | some c => .ok (c, rest)
    | none => if x = Byte.u then readNumbered rest else .error (.after .invalidEscape rest)

theorem length_readLowSurrogate_lt {high : Nat} {input rest : Input} {c : Char}
    (h : readLowSurrogate high input = .ok (c, rest)) : rest.length < input.length := by
  unfold readLowSurrogate at h
  split at h
  · cases h
  split at h
  · split at h
    · cases h
    split at h
    · split at h
      · cases h
      · rename_i low left hr
        have := length_readHex_lt hr
        split at h
        · simp only [Except.ok.injEq, Prod.mk.injEq] at h
          rw [← h.2]
          simp only [List.length_cons]; omega
        · cases h
    · cases h
  · cases h

theorem length_readEscape_lt {input rest : Input} {c : Char}
    (h : readEscape input = .ok (c, rest)) : rest.length < input.length := by
  unfold readEscape at h
  split at h
  · cases h
  · rename_i x tail
    split at h
    · cases h; simp
    · split at h
      · unfold readNumbered at h
        split at h
        · cases h
        · rename_i n left hr
          have := length_readHex_lt hr
          split at h
          · cases h
          · split at h
            · have := length_readLowSurrogate_lt h
              simp only [List.length_cons]; omega
            · cases h; simp only [List.length_cons]; omega
      · cases h

/-- Reads a string up to its closing quote. `front` holds the characters read so far, latest first,
and `fault` the input behind the first byte that is not UTF-8, if there was one. -/
def readTextFrom (fault : Option Input) (front : List Char) : Input → Except Flaw (String × Input)
  | [] => .error (.after .endInString [])
  | x :: rest =>
    if x = Byte.quote then
      match fault with
      | none => .ok (String.ofList front.reverse, rest)
      | some left => .error (.after .invalidCodePoint left)
    else if x = Byte.backslash then
      match _h : readEscape rest with
      | .ok (c, left) => readTextFrom fault (c :: front) left
      | .error flaw => .error flaw
    else if x < 0x20 then .error (.after .controlCharacter rest)
    else
      match _h : Utf8.decode? (x :: rest) with
      | some (c, left) => readTextFrom fault (c :: front) left
      | none => readTextFrom (fault.or (some rest)) front rest
termination_by input => input.length
decreasing_by
  · have := length_readEscape_lt _h
    simp only [List.length_cons]; omega
  · exact Utf8.length_decode?_lt _h
  · simp

/-- Reads a string behind its opening quote. -/
def readText (input : Input) : Except Flaw (String × Input) := readTextFrom none [] input

theorem length_readTextFrom_lt {fault : Option Input} {front : List Char} {input rest : Input}
    {s : String} (h : readTextFrom fault front input = .ok (s, rest)) :
    rest.length < input.length := by
  fun_induction readTextFrom fault front input with
  | case1 => cases h
  | case2 => cases h; simp
  | case3 => cases h
  | case4 =>
    rename_i he _ ih
    have := length_readEscape_lt he
    have := ih h
    simp only [List.length_cons]; omega
  | case5 => cases h
  | case6 => cases h
  | case7 =>
    rename_i he ih
    have := Utf8.length_decode?_lt he
    exact Nat.lt_trans (ih h) this
  | case8 =>
    rename_i ih
    have := ih h
    simp only [List.length_cons]; omega

theorem length_readText_lt {input rest : Input} {s : String} (h : readText input = .ok (s, rest)) :
    rest.length < input.length := length_readTextFrom_lt h

/-- Passes over an escape behind its backslash. -/
def skipEscape : Input → Except Flaw Input
  | [] => .error (.after .endInString [])
  | x :: rest =>
    match escapedChar? x with
    | some _ => .ok rest
    | none =>
      if x = Byte.u then (readHex rest).map (·.2) else .error (.after .invalidEscape rest)

theorem length_skipEscape_lt {input rest : Input} (h : skipEscape input = .ok rest) :
    rest.length < input.length := by
  unfold skipEscape at h
  split at h
  · cases h
  · split at h
    · cases h; simp
    · split at h
      · rename_i tail _ _ _
        cases hr : readHex tail with
        | error flaw => rw [hr] at h; cases h
        | ok p =>
          rw [hr] at h; cases h
          have : p.2.length < tail.length := length_readHex_lt hr
          simp only [List.length_cons]; omega
      · cases h

/-- Passes over a string behind its opening quote. -/
def skipText : Input → Except Flaw Input
  | [] => .error (.after .endInString [])
  | x :: rest =>
    if x = Byte.quote then .ok rest
    else if x = Byte.backslash then
      match _h : skipEscape rest with
      | .ok left => skipText left
      | .error flaw => .error flaw
    else if x < 0x20 then .error (.after .controlCharacter (x :: rest))
    else skipText rest
termination_by input => input.length
decreasing_by
  · have := length_skipEscape_lt _h
    simp only [List.length_cons]; omega
  · simp

theorem length_skipText_lt {input rest : Input} (h : skipText input = .ok rest) :
    rest.length < input.length := by
  fun_induction skipText input with
  | case1 => cases h
  | case2 => cases h; simp
  | case3 =>
    rename_i he _ ih
    have := length_skipEscape_lt he
    have := ih h
    simp only [List.length_cons]; omega
  | case4 => cases h
  | case5 => cases h
  | case6 =>
    rename_i ih
    have := ih h
    simp only [List.length_cons]; omega

end Catalogue.Json
