import Catalogue.Json.Flaw

/-!
# The small pieces of a JSON text

Blanks, fixed words, and the bytes that have a meaning of their own.
-/

namespace Catalogue.Json

namespace Byte

@[match_pattern] abbrev quote : UInt8 := 0x22
@[match_pattern] abbrev plus : UInt8 := 0x2B
@[match_pattern] abbrev comma : UInt8 := 0x2C
@[match_pattern] abbrev minus : UInt8 := 0x2D
@[match_pattern] abbrev point : UInt8 := 0x2E
@[match_pattern] abbrev slash : UInt8 := 0x2F
@[match_pattern] abbrev zero : UInt8 := 0x30
@[match_pattern] abbrev colon : UInt8 := 0x3A
@[match_pattern] abbrev openBracket : UInt8 := 0x5B
@[match_pattern] abbrev backslash : UInt8 := 0x5C
@[match_pattern] abbrev closeBracket : UInt8 := 0x5D
@[match_pattern] abbrev b : UInt8 := 0x62
@[match_pattern] abbrev f : UInt8 := 0x66
@[match_pattern] abbrev n : UInt8 := 0x6E
@[match_pattern] abbrev r : UInt8 := 0x72
@[match_pattern] abbrev t : UInt8 := 0x74
@[match_pattern] abbrev u : UInt8 := 0x75
@[match_pattern] abbrev openBrace : UInt8 := 0x7B
@[match_pattern] abbrev closeBrace : UInt8 := 0x7D

/-- Whether a byte may stand between tokens. -/
def isBlank (x : UInt8) : Bool := x = 0x20 ∨ x = 0x0A ∨ x = 0x09 ∨ x = 0x0D

/-- Whether a byte is a decimal digit. -/
def isDigit (x : UInt8) : Bool := 0x30 ≤ x ∧ x ≤ 0x39

/-- Whether a byte begins an exponent. -/
def isExponentMark (x : UInt8) : Bool := x = 0x65 ∨ x = 0x45

end Byte

/-- The input behind its leading blanks. -/
def skipBlanks (input : Input) : Input := input.dropWhile Byte.isBlank

theorem length_skipBlanks_le (input : Input) : (skipBlanks input).length ≤ input.length :=
  (List.dropWhile_suffix _).length_le

/-- What is left is shorter once something behind the blanks is taken away. -/
theorem length_lt_of_skipBlanks {input rest : Input} {x : UInt8}
    (h : skipBlanks input = x :: rest) : rest.length < input.length := by
  have := length_skipBlanks_le input
  rw [h, List.length_cons] at this
  omega

/-- Reads the rest of a fixed word. -/
def readWord : List UInt8 → Input → Except Flaw Input
  | [], input => .ok input
  | _ :: _, [] => .error (.after .endInValue [])
  | x :: word, y :: rest =>
    if x = y then readWord word rest else .error (.after .expectedIdent rest)

theorem length_readWord_le {word input rest : List UInt8} (h : readWord word input = .ok rest) :
    rest.length ≤ input.length := by
  induction word generalizing input with
  | nil => cases h; exact Nat.le_refl _
  | cons x word ih =>
    cases input with
    | nil => cases h
    | cons y input =>
      simp only [readWord] at h
      split at h
      · have := ih h
        simp only [List.length_cons]; omega
      · cases h

/-- What follows the first letter of `null`, `true` and `false`. -/
def restOfNull : List UInt8 := [0x75, 0x6C, 0x6C]
def restOfTrue : List UInt8 := [0x72, 0x75, 0x65]
def restOfFalse : List UInt8 := [0x61, 0x6C, 0x73, 0x65]

end Catalogue.Json
