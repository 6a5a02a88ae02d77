/-!
# Decimal numerals of bounded integers

Writing is `ofNat` and `ofInt`. Reading takes an optional sign and one or more digits, goes from
left to right, and stops at the first fault: a character that is no digit, or a digit that carries
the value out of the range asked for. So of two faults the one further left is reported.
-/

namespace Catalogue.Numeral

/-- The digits of a natural number, most significant first. -/
def ofNat (n : Nat) : List Char := Nat.toDigits 10 n

/-- A minus sign stands before the digits of a negative number, nothing before the others. -/
def ofInt : Int → List Char
  | .ofNat n => ofNat n
  | .negSucc n => '-' :: ofNat (n + 1)

/-- The value of a digit. -/
def digit? (c : Char) : Option Nat :=
  if '0' ≤ c ∧ c ≤ '9' then some (c.toNat - '0'.toNat) else none

/-- The value of a digit in a base up to sixteen. -/
def digitIn? (base : Nat) (c : Char) : Option Nat :=
  let n :=
    if '0' ≤ c ∧ c ≤ '9' then c.toNat - '0'.toNat
    else if 'a' ≤ c ∧ c ≤ 'f' then c.toNat - 'a'.toNat + 10
    else if 'A' ≤ c ∧ c ≤ 'F' then c.toNat - 'A'.toNat + 10
    else 16
  if n < base then some n else none

/-- The number that digits of a base stand for, most significant first. -/
def ofDigits (base : Nat) (digits : List Nat) : Nat := digits.foldl (fun n d => n * base + d) 0

/-- Why a text is not a numeral in range. -/
inductive Flaw where
  | empty
  | notADigit
  | tooLarge
  | tooSmall
  deriving DecidableEq, Repr

/-- The wording of each fault. -/
def Flaw.message : Flaw → String
  | .empty => "cannot parse integer from empty string"
  | .notADigit => "invalid digit found in string"
  | .tooLarge => "number too large to fit in target type"
  | .tooSmall => "number too small to fit in target type"

/-- The integers between two bounds. -/
structure Range where
  least : Int
  greatest : Int
  deriving DecidableEq, Repr

namespace Range

/-- Two's complement integers of 64 bits. -/
def int64 : Range := ⟨-0x8000000000000000, 0x7FFFFFFFFFFFFFFF⟩

/-- Unsigned integers of the given number of bits. -/
def unsigned (bits : Nat) : Range := ⟨0, (Nat.pow 2 bits : Nat) - 1⟩

/-- Whether an integer lies in the range. -/
def holds (range : Range) (i : Int) : Bool := range.least ≤ i && i ≤ range.greatest

end Range

/-- Reads digits behind `value`, away from zero on the side that the sign names. -/
def readDigits (range : Range) (negative : Bool) : Int → List Char → Except Flaw Int
  | value, [] => .ok value
  | value, c :: rest =>
    match digit? c with
    | none => .error .notADigit
    | some d =>
      let grown := if negative then value * 10 - d else value * 10 + d
      if grown < range.least then .error .tooSmall
      else if range.greatest < grown then .error .tooLarge
      else readDigits range negative grown rest

/-- Reads an integer of the range. A plus sign is always allowed, a minus sign only where the range
has negative members; a sign alone has no digits. -/
def read (range : Range) : List Char → Except Flaw Int
  | [] => .error .empty
  | ['+'] => .error .notADigit
  | ['-'] => .error .notADigit
  | '+' :: rest => readDigits range false 0 rest
  | '-' :: rest =>
    if range.least < 0 then readDigits range true 0 rest else .error .notADigit
  | text => readDigits range false 0 text

/-- Reads a natural number of the given number of bits, where any fault refuses the text. -/
def readUnsigned? (bits : Nat) (text : String) : Option Nat :=
  match read (.unsigned bits) text.toList with
  | .ok n => some n.toNat
  | .error _ => none

end Catalogue.Numeral
