import Catalogue.Json.Scan

/-!
# Numbers of a JSON text

A whole number of 64 bits, signed or not, is read as it is. Every other number becomes a
floating-point number: as many leading digits as fit 64 bits are scaled by one power of ten, so the
last place may be off. A number too large for a float is a fault. `skipNumber` passes over a number
of any size.
-/

namespace Catalogue.Json

/-- A number as it is read. -/
inductive Number where
  | whole (value : Int)
  | rounded (value : Float)

/-- What a number is called in messages. -/
def Number.found : Number → Found
  | .whole i => .integer i
  | .rounded x => .float x

/-- Digits in front of the input. -/
def leadingDigits (input : Input) : List UInt8 := input.takeWhile Byte.isDigit

/-- The input behind its leading digits. -/
def skipDigits (input : Input) : Input := input.dropWhile Byte.isDigit

theorem length_skipDigits_le (input : Input) : (skipDigits input).length ≤ input.length :=
  (List.dropWhile_suffix _).length_le

/-- The value of a digit. -/
def digitValue (x : UInt8) : Nat := x.toNat - 0x30

/-- Appends digits to a number as long as 64 bits hold it; the second part counts the digits that
were left out. -/
def appendDigits : Nat → List UInt8 → Nat × Nat
  | n, [] => (n, 0)
  | n, x :: rest =>
    let grown := n * 10 + digitValue x
    if grown < 0x10000000000000000 then appendDigits grown rest else (n, rest.length + 1)

/-- A power of ten as a float, for exponents up to 308. -/
def powerOfTen (exponent : Nat) : Float := Float.ofScientific 1 false exponent

/-- Divides by a power of ten, in steps that floats can hold. -/
def scaleDown (x : Float) (exponent : Nat) : Float :=
  if exponent ≤ 308 then x / powerOfTen exponent
  else if x == 0 then x
  else scaleDown (x / powerOfTen 308) (exponent - 308)
termination_by exponent

/-- Multiplies by a power of ten; nothing if no float is that large. -/
def scaleUp? (x : Float) (exponent : Nat) : Option Float :=
  if exponent ≤ 308 then
    let y := x * powerOfTen exponent
    if y.isInf then none else some y
  else if x == 0 then some x
  else none

/-- The float `digits · 10 ^ exponent` with a sign, read up to `rest`. -/
def finishFloat (negative : Bool) (digits : Nat) (exponent : Int) (rest : Input) :
    Except Flaw (Number × Input) :=
  let x := digits.toUInt64.toFloat
  let scaled := if 0 ≤ exponent then scaleUp? x exponent.toNat
    else some (scaleDown x exponent.natAbs)
  match scaled with
  | none => .error (.after .numberOutOfRange rest)
  | some y => .ok (.rounded (if negative then -y else y), rest)

/-- The whole number `digits` with a sign. A negative zero and what 64 bits do not hold are floats.
-/
def finishWhole (negative : Bool) (digits : Nat) : Number :=
  if negative then
    if 0 < digits ∧ digits ≤ 0x8000000000000000 then .whole (-digits)
    else .rounded (-digits.toUInt64.toFloat)
  else .whole digits

/-- An exponent with its sign. -/
def signedExponent (negative : Bool) (e : Nat) : Int := if negative then -(e : Int) else e

/-- Reads the further digits of an exponent `e`. An exponent above 31 bits makes the number zero if
it is negative or if all digits are zero, and too large otherwise. -/
def readExponentDigits (negative : Bool) (digits : Nat) (before : Int) (negativeExponent : Bool)
    (e : Nat) : Input → Except Flaw (Number × Input)
  | [] => finishFloat negative digits (before + signedExponent negativeExponent e) []
  | x :: rest =>
    if Byte.isDigit x then
      let grown := e * 10 + digitValue x
      if grown < 0x80000000 then
        readExponentDigits negative digits before negativeExponent grown rest
      else if digits ≠ 0 ∧ !negativeExponent then .error (.after .numberOutOfRange rest)
      else .ok (.rounded (if negative then -0 else 0), skipDigits rest)
    else finishFloat negative digits (before + signedExponent negativeExponent e) (x :: rest)

/-- The sign in front of an exponent, and what follows it. -/
def exponentSign : Input → Bool × Input
  | Byte.plus :: rest => (false, rest)
  | Byte.minus :: rest => (true, rest)
  | input => (false, input)

/-- Reads an exponent behind its mark. -/
def readExponent (negative : Bool) (digits : Nat) (before : Int) (input : Input) :
    Except Flaw (Number × Input) :=
  let (negativeExponent, behind) := exponentSign input
  match behind with
  | [] => .error (.after .endInValue [])
  | x :: rest =>
    if Byte.isDigit x then
      readExponentDigits negative digits before negativeExponent (digitValue x) rest
    else .error (.after .invalidNumber rest)

/-- Reads the digits behind a decimal point. `before` counts the digits in front of it that
`digits` leaves out. -/
def readFraction (negative : Bool) (digits before : Nat) (input : Input) :
    Except Flaw (Number × Input) :=
  match leadingDigits input with
  | [] =>
    match input with
    | [] => .error (.after .endInValue [])
    | _ :: _ => .error (.facing .invalidNumber input)
  | fraction =>
    let (digits, dropped) := appendDigits digits fraction
    let exponent : Int := before - (fraction.length - dropped : Nat)
    match skipDigits input with
    | [] => finishFloat negative digits exponent []
    | x :: rest =>
      if Byte.isExponentMark x then readExponent negative digits exponent rest
      else finishFloat negative digits exponent (x :: rest)

/-- Reads what follows the digits of a whole number. `before` counts the digits that `digits`
leaves out. -/
def readTail (negative : Bool) (digits before : Nat) (input : Input) :
    Except Flaw (Number × Input) :=
  let whole : Except Flaw (Number × Input) :=
    if before = 0 then .ok (finishWhole negative digits, input)
    else finishFloat negative digits before input
  match input with
  | [] => whole
  | x :: rest =>
    if x = Byte.point then readFraction negative digits before rest
    else if Byte.isExponentMark x then readExponent negative digits before rest
    else whole

/-- Reads a number behind its sign. A zero stands alone in front of the point. -/
def readNumber (negative : Bool) : Input → Except Flaw (Number × Input)
  | [] => .error (.after .endInValue [])
  | x :: rest =>
    if x = Byte.zero then
      match leadingDigits rest with
      | [] => readTail negative 0 0 rest
      | _ :: _ => .error (.facing .invalidNumber rest)
    else if Byte.isDigit x then
      let (digits, dropped) := appendDigits (digitValue x) (leadingDigits rest)
      readTail negative digits dropped (skipDigits rest)
    else .error (.after .invalidNumber rest)

/-- Passes over an exponent behind its mark. -/
def skipExponent (input : Input) : Except Flaw Input :=
  match (exponentSign input).2 with
  | [] => .error (.after .invalidNumber [])
  | x :: rest =>
    if Byte.isDigit x then .ok (skipDigits rest) else .error (.after .invalidNumber rest)

/-- Passes over the digits behind a decimal point. -/
def skipFraction (input : Input) : Except Flaw Input :=
  match leadingDigits input with
  | [] => .error (.facing .invalidNumber input)
  | _ :: _ =>
    match skipDigits input with
    | [] => .ok []
    | x :: rest => if Byte.isExponentMark x then skipExponent rest else .ok (x :: rest)

/-- Passes over what follows the digits of a whole number. -/
def skipTail : Input → Except Flaw Input
  | [] => .ok []
  | x :: rest =>
    if x = Byte.point then skipFraction rest
    else if Byte.isExponentMark x then skipExponent rest
    else .ok (x :: rest)

/-- Passes over a number behind its sign. -/
def skipNumber : Input → Except Flaw Input
  | [] => .error (.after .invalidNumber [])
  | x :: rest =>
    if x = Byte.zero then
      match leadingDigits rest with
      | [] => skipTail rest
      | _ :: _ => .error (.facing .invalidNumber rest)
    else if Byte.isDigit x then skipTail (skipDigits rest)
    else .error (.after .invalidNumber rest)

/-! ### What is left -/

theorem length_exponentSign_le (input : Input) : (exponentSign input).2.length ≤ input.length := by
  unfold exponentSign
  split <;> simp

theorem length_skipExponent_le {input rest : Input} (h : skipExponent input = .ok rest) :
    rest.length ≤ input.length := by
  unfold skipExponent at h
  have hs := length_exponentSign_le input
  split at h
  · cases h
  · rename_i x tail he
    rw [he, List.length_cons] at hs
    split at h
    · cases h
      have := length_skipDigits_le tail
      omega
    · cases h

theorem length_skipFraction_le {input rest : Input} (h : skipFraction input = .ok rest) :
    rest.length ≤ input.length := by
  unfold skipFraction at h
  have hd := length_skipDigits_le input
  split at h
  · cases h
  · split at h
    · cases h; simp
    · rename_i x tail he
      rw [he, List.length_cons] at hd
      split at h
      · have := length_skipExponent_le h
        omega
      · cases h; simp only [List.length_cons]; omega

theorem length_skipTail_le {input rest : Input} (h : skipTail input = .ok rest) :
    rest.length ≤ input.length := by
  unfold skipTail at h
  split at h
  · cases h; exact Nat.le_refl _
  · split at h
    · have := length_skipFraction_le h
      simp only [List.length_cons]; omega
    · split at h
      · have := length_skipExponent_le h
        simp only [List.length_cons]; omega
      · cases h; exact Nat.le_refl _

theorem length_skipNumber_lt {input rest : Input} (h : skipNumber input = .ok rest) :
    rest.length < input.length := by
  unfold skipNumber at h
  split at h
  · cases h
  · rename_i x tail
    split at h
    · split at h
      · have := length_skipTail_le h
        simp only [List.length_cons]; omega
      · cases h
    · split at h
      · have := length_skipTail_le h
        have := length_skipDigits_le tail
        simp only [List.length_cons]; omega
      · cases h

end Catalogue.Json
