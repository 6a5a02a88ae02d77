import Catalogue.Json.Number
import Catalogue.Json.Text

/-!
# Passing over a value

A value of which nothing is kept is still read to its end. The brackets that are open are kept in a
list, innermost first, so nesting has no limit here: `skipValue` goes on with the value that the
innermost bracket is waiting for, `skipAfter` with what may follow a finished value.
-/

namespace Catalogue.Json

/-- A bracket that is open. -/
inductive Bracket where
  | list
  | object
  deriving DecidableEq, Repr

namespace Bracket

/-- The byte that closes the bracket. -/
def closing : Bracket → UInt8
  | .list => Byte.closeBracket
  | .object => Byte.closeBrace

/-- What the input lacks if it ends before the bracket is closed. -/
def unclosed : Bracket → Cause
  | .list => .endInList
  | .object => .endInObject

/-- What may follow a value inside the bracket. -/
def separatorMissing : Bracket → Cause
  | .list => .expectedCommaOrBracket
  | .object => .expectedCommaOrBrace

end Bracket

/-- Passes over a colon. -/
def readColon (input : Input) : Except Flaw Input :=
  match skipBlanks input with
  | [] => .error (.facing .endInObject [])
  | x :: rest =>
    if x = Byte.colon then .ok rest else .error (.facing .expectedColon (x :: rest))

theorem length_readColon_lt {input rest : Input} (h : readColon input = .ok rest) :
    rest.length < input.length := by
  unfold readColon at h
  split at h
  · cases h
  · rename_i x tail he
    split at h
    · cases h; exact length_lt_of_skipBlanks he
    · cases h

/-- Passes over the key and the colon that stand in front of a value in an object. -/
def skipKey (input : Input) : Except Flaw Input :=
  match skipBlanks input with
  | [] => .error (.facing .endInObject [])
  | x :: rest =>
    if x = Byte.quote then
      match skipText rest with
      | .error flaw => .error flaw
      | .ok left => readColon left
    else .error (.facing .keyNotAString (x :: rest))

theorem length_skipKey_lt {input rest : Input} (h : skipKey input = .ok rest) :
    rest.length < input.length := by
  unfold skipKey at h
  split at h
  · cases h
  · rename_i x tail he
    have hx := length_lt_of_skipBlanks he
    split at h
    · split at h
      · cases h
      · rename_i left ht
        have := length_skipText_lt ht
        have := length_readColon_lt h
        omega
    · cases h

/-- Passes over the key of the next value where the bracket asks for one. -/
def Bracket.skipKey : Bracket → Input → Except Flaw Input
  | .list, input => .ok input
  | .object, input => Json.skipKey input

theorem Bracket.length_skipKey_le {b : Bracket} {input rest : Input}
    (h : b.skipKey input = .ok rest) : rest.length ≤ input.length := by
  cases b with
  | list => cases h; exact Nat.le_refl _
  | object => exact Nat.le_of_lt (length_skipKey_lt h)

/-- Passes over a value that is no list and no object, behind its first byte. -/
def skipScalar (x : UInt8) (rest : Input) : Except Flaw Input :=
  if x = Byte.n then readWord restOfNull rest
  else if x = Byte.t then readWord restOfTrue rest
  else if x = Byte.f then readWord restOfFalse rest
  else if x = Byte.quote then skipText rest
  else if x = Byte.minus then skipNumber rest
  else if Byte.isDigit x then skipNumber (x :: rest)
  else .error (.facing .expectedValue (x :: rest))

theorem length_skipScalar_le {x : UInt8} {input rest : Input} (h : skipScalar x input = .ok rest) :
    rest.length ≤ input.length := by
  unfold skipScalar at h
  split at h
  · exact length_readWord_le h
  split at h
  · exact length_readWord_le h
  split at h
  · exact length_readWord_le h
  split at h
  · exact Nat.le_of_lt (length_skipText_lt h)
  split at h
  · exact Nat.le_of_lt (length_skipNumber_lt h)
  split at h
  · exact Nat.le_of_lt_succ (length_skipNumber_lt h)
  · cases h

/-- The bracket that a byte opens. -/
def Bracket.opened? (x : UInt8) : Option Bracket :=
  if x = Byte.openBracket then some .list
  else if x = Byte.openBrace then some .object
  else none

mutual

/-- Passes over a value and all that the open brackets still require. -/
def skipValue (opened : List Bracket) (input : Input) : Except Flaw Input :=
  match _hs : skipBlanks input with
  | [] => .error (.facing .endInValue [])
  | x :: rest =>
    match Bracket.opened? x with
    | some bracket => skipFirst bracket opened rest
    | none =>
      match _h : skipScalar x rest with
      | .ok left => skipAfter opened left
      | .error flaw => .error flaw
termination_by (input.length, 0)
decreasing_by
  · exact .left _ _ (length_lt_of_skipBlanks _hs)
  · have := length_skipScalar_le _h
    have := length_lt_of_skipBlanks _hs
    exact .left _ _ (by omega)

/-- Passes over the first value behind an opening bracket, or over the closing one. -/
def skipFirst (bracket : Bracket) (opened : List Bracket) (input : Input) : Except Flaw Input :=
  match _hs : skipBlanks input with
  | [] => .error (.facing bracket.unclosed [])
  | x :: rest =>
    if x = bracket.closing then skipAfter opened rest
    else
      match _h : bracket.skipKey (x :: rest) with
      | .ok left => skipValue (bracket :: opened) left
      | .error flaw => .error flaw
termination_by (input.length, 1)
decreasing_by
  · exact .left _ _ (length_lt_of_skipBlanks _hs)
  · have h1 := Bracket.length_skipKey_le _h
    have h2 := length_skipBlanks_le input
    rw [_hs] at h2
    rcases Nat.lt_or_eq_of_le (Nat.le_trans h1 h2) with h | h
    · exact .left _ _ h
    · rw [h]; exact .right _ (by omega)

/-- Passes over what the open brackets require behind a finished value. -/
def skipAfter (opened : List Bracket) (input : Input) : Except Flaw Input :=
  match opened with
  | [] => .ok input
  | bracket :: outer =>
    match _hs : skipBlanks input with
    | [] => .error (.facing bracket.unclosed [])
    | x :: rest =>
      if x = bracket.closing then skipAfter outer rest
      else if x = Byte.comma then
        match _h : bracket.skipKey rest with
        | .ok left => skipValue (bracket :: outer) left
        | .error flaw => .error flaw
      else .error (.facing bracket.separatorMissing (x :: rest))
termination_by (input.length, 0)
decreasing_by
  · exact .left _ _ (length_lt_of_skipBlanks _hs)
  · have := Bracket.length_skipKey_le _h
    have := length_lt_of_skipBlanks _hs
    exact .left _ _ (by omega)

end

end Catalogue.Json
