import Catalogue.Settings.Tree

/-!
# Numbers and truth values of TOML

They are written without quotes, so a whole word is read first and then understood. Underscores may
stand between two digits. Dates and times are not understood.
-/

namespace Catalogue.Settings.Toml

/-- Whether a character may stand in such a word. -/
def isWordChar (c : Char) : Bool := c.isAlphanum || c ∈ ['_', '-', '+', '.', ':']

/-- The digits of a base, where an underscore may stand between two of them. -/
def digits? (base : Nat) : List Char → Option (List Nat)
  | [] => none
  | [c] => (Numeral.digitIn? base c).map ([·])
  | c :: '_' :: rest => do return (← Numeral.digitIn? base c) :: (← digits? base rest)
  | c :: rest => do return (← Numeral.digitIn? base c) :: (← digits? base rest)

/-- Decimal digits without a needless zero in front. -/
def wholeDigits? (text : List Char) : Option (List Nat) :=
  (digits? 10 text).filter fun digits => digits.length = 1 || digits.head? ≠ some 0

/-- A text without its sign, and whether the sign was a minus. -/
def splitSign : List Char → Bool × List Char
  | '-' :: rest => (true, rest)
  | '+' :: rest => (false, rest)
  | text => (false, text)

/-- An integer that 64 bits hold. -/
def bounded? (i : Int) : Option Tree :=
  if Numeral.Range.int64.holds i then some (.integer i) else none

/-- The integer of a word. -/
def integer? : List Char → Option Tree
  | '0' :: 'x' :: rest => (digits? 16 rest).bind fun ds => bounded? (Numeral.ofDigits 16 ds)
  | '0' :: 'o' :: rest => (digits? 8 rest).bind fun ds => bounded? (Numeral.ofDigits 8 ds)
  | '0' :: 'b' :: rest => (digits? 2 rest).bind fun ds => bounded? (Numeral.ofDigits 2 ds)
  | text => do
    let (negative, text) := splitSign text
    let n : Int := Numeral.ofDigits 10 (← wholeDigits? text)
    bounded? (if negative then -n else n)

/-- The float `n · 10 ^ exponent`, none if it is too large. Exponents that are out of reach need no
exact arithmetic. -/
def scaled? (n : Nat) (exponent : Int) : Option Float :=
  if n = 0 then some 0
  else
    let magnitude := (Nat.toDigits 10 n).length + exponent
    if 310 < magnitude then none
    else if magnitude < -330 then some 0
    else
      let x := Float.ofScientific n (exponent < 0) exponent.natAbs
      if x.isInf then none else some x

/-- The exponent of a number behind its mark. -/
def exponent? (text : List Char) : Option Int := do
  let (negative, text) := splitSign text
  let e : Int := Numeral.ofDigits 10 (← digits? 10 text)
  return if negative then -e else e

/-- The number with digits in front of a point and behind it, and an exponent. -/
def decimal? (text : List Char) : Option Float := do
  let (significand, mark) := text.span fun c => c ≠ 'e' ∧ c ≠ 'E'
  let (whole, point) := significand.span (· ≠ '.')
  if mark = [] ∧ point = [] then none
  let whole ← wholeDigits? whole
  let fraction ← if point = [] then some [] else digits? 10 (point.drop 1)
  let exponent ← if mark = [] then some 0 else exponent? (mark.drop 1)
  scaled? (Numeral.ofDigits 10 (whole ++ fraction)) (exponent - fraction.length)

/-- The floating-point number of a word. -/
def float? (text : List Char) : Option Tree := do
  let (negative, text) := splitSign text
  let x ←
    if text = "inf".toList then some (1.0 / 0.0)
    else if text = "nan".toList then some (0.0 / 0.0)
    else decimal? text
  return .float (if negative then -x else x)

/-- The value of a word. -/
def ofWord? (word : List Char) : Option Tree :=
  if word = "true".toList then some (.boolean true)
  else if word = "false".toList then some (.boolean false)
  else (integer? word).or (float? word)

end Catalogue.Settings.Toml
