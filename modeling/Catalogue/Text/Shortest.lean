import Catalogue.Text.Numeral

/-!
# Shortest decimal of a floating-point number

A finite number is `mantissa · 2 ^ power`. The decimals that read back to it fill the interval
between the midpoints to its two neighbours, the ends included when the mantissa is even. For one
digit, two digits, and so on, the two decimals of that many digits next to the number are tried: the
first count with a decimal inside the interval gives the text. Of two such decimals the nearer is
taken, and the even one of two equally near. All arithmetic is exact.
-/

namespace Catalogue.Shortest

/-- A positive number `mantissa · 2 ^ power`, with the information whether the number below is half
as far away as the number above. -/
structure Binary where
  mantissa : Nat
  power : Int
  narrowBelow : Bool
  deriving DecidableEq, Repr

/-- A decimal `digits · 10 ^ exponent`. -/
structure Decimal where
  digits : Nat
  exponent : Int
  deriving DecidableEq, Repr

/-- The magnitude of a number from the lower 63 bits of its representation. -/
def Binary.ofBits (bits : Nat) : Binary :=
  let fraction : Nat := bits % 0x10000000000000
  let biased : Nat := bits / 0x10000000000000 % 0x800
  if biased = 0 then ⟨fraction, -1074, false⟩
  else ⟨0x10000000000000 + fraction, (biased : Int) - 1075, fraction = 0 ∧ 1 < biased⟩

/-- Numbers as quotients over one denominator: the number itself and the two ends of the interval
of decimals that read back to it, all in quarters of its last place. -/
structure Span where
  low : Nat
  value : Nat
  high : Nat
  den : Nat
  closed : Bool
  deriving DecidableEq, Repr

/-- The interval of a number. -/
def Binary.span (b : Binary) : Span :=
  let scale := Nat.pow 2 (b.power - 2).toNat
  { low := (4 * b.mantissa - if b.narrowBelow then 1 else 2) * scale
    value := 4 * b.mantissa * scale
    high := (4 * b.mantissa + 2) * scale
    den := Nat.pow 2 (2 - b.power).toNat
    closed := b.mantissa % 2 = 0 }

/-- The same interval measured in units of `10 ^ exponent`. -/
def Span.inUnits (s : Span) (exponent : Int) : Span :=
  let up := Nat.pow 10 (-exponent).toNat
  { low := s.low * up, value := s.value * up, high := s.high * up
    den := s.den * Nat.pow 10 exponent.toNat, closed := s.closed }

/-- Whether the whole number `n` lies in the interval. -/
def Span.holds (s : Span) (n : Nat) : Bool :=
  if s.closed then s.low ≤ n * s.den ∧ n * s.den ≤ s.high
  else s.low < n * s.den ∧ n * s.den < s.high

/-- Twice the distance of the whole number `n` from the value, over the denominator. -/
def Span.distance (s : Span) (n : Nat) : Nat :=
  (n * s.den - s.value) + (s.value - n * s.den)

/-- The whole number next to the value that lies in the interval, if any: the nearer one if both
do, the even one if both are equally near. -/
def Span.choose? (s : Span) : Option Nat :=
  let below := s.value / s.den
  let above := below + 1
  match s.holds below, s.holds above with
  | true, true =>
    if s.distance below < s.distance above then some below
    else if s.distance above < s.distance below then some above
    else if below % 2 = 0 then some below else some above
  | true, false => some below
  | false, true => some above
  | false, false => none

/-- How many times a quotient below one has to be multiplied by ten to reach one, up to `limit`. -/
def leadingZeros (den : Nat) : Nat → Nat → Nat
  | 0, _ => 0
  | limit + 1, num => if den ≤ num then 0 else leadingZeros den limit (num * 10) + 1

/-- The power of ten of the first digit of a positive quotient. -/
def Span.magnitude (s : Span) : Int :=
  if s.den ≤ s.value then (Numeral.ofNat (s.value / s.den)).length - 1
  else -(leadingZeros s.den 400 s.value : Nat)

/-- A decimal without zeros at the end of its digits. -/
def Decimal.strip : Nat → Decimal → Decimal
  | 0, d => d
  | limit + 1, d =>
    if d.digits ≠ 0 ∧ d.digits % 10 = 0 then strip limit ⟨d.digits / 10, d.exponent + 1⟩ else d

/-- Tries digit counts from `count` on, `tries` of them. -/
def search (s : Span) (count : Nat) : Nat → Decimal
  | 0 => ⟨0, 0⟩
  | tries + 1 =>
    let exponent := s.magnitude - count + 1
    match (s.inUnits exponent).choose? with
    | some n => Decimal.strip 20 ⟨n, exponent⟩
    | none => search s (count + 1) tries

/-- The shortest decimal of a positive number. Seventeen digits are always enough. -/
def Binary.shortest (b : Binary) : Decimal := search b.span 1 17

/-- How a decimal is laid out. -/
structure Layout where
  /-- The powers of ten of the first digit that are written without an exponent, all if absent. -/
  positional : Option (Int × Int)
  /-- What follows the digits of a whole number. -/
  whole : List Char

/-- Whether a first digit of this power of ten is written without an exponent. -/
def Layout.isPositional (l : Layout) (magnitude : Int) : Bool :=
  match l.positional with
  | none => true
  | some (low, high) => low ≤ magnitude ∧ magnitude ≤ high

/-- Lays out a decimal: digits with a point, or digits with an exponent that always has a sign. -/
def Layout.write (l : Layout) (d : Decimal) : List Char :=
  let digits := Numeral.ofNat d.digits
  let magnitude := d.exponent + digits.length - 1
  if l.isPositional magnitude then
    if 0 ≤ d.exponent then digits ++ List.replicate d.exponent.toNat '0' ++ l.whole
    else if 0 ≤ magnitude then
      let ahead := magnitude.toNat + 1
      digits.take ahead ++ '.' :: digits.drop ahead
    else '0' :: '.' :: List.replicate (-magnitude - 1).toNat '0' ++ digits
  else
    let fraction := if digits.length ≤ 1 then [] else '.' :: digits.drop 1
    let sign := if magnitude < 0 then '-' else '+'
    digits.take 1 ++ fraction ++ 'e' :: sign :: Numeral.ofNat magnitude.natAbs

/-- The text of a number in a layout. -/
def Layout.text (l : Layout) (x : Float) : String :=
  let bits := x.toBits.toNat
  let sign := if 0x8000000000000000 ≤ bits then ['-'] else []
  let magnitude := bits % 0x8000000000000000
  if x.isNaN then "NaN"
  else if x.isInf then String.ofList (sign ++ "inf".toList)
  else if magnitude = 0 then String.ofList (sign ++ '0' :: l.whole)
  else String.ofList (sign ++ l.write (Binary.ofBits magnitude).shortest)

end Catalogue.Shortest
