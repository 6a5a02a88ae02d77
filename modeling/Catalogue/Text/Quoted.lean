import Catalogue.Text.Invisible
import Catalogue.Text.Numeral

/-!
# Quoted text in diagnostics

A text is put between double quotes so that every character of it can be told from the printed
form: the quote and the backslash are preceded by a backslash, four control characters have a letter
of their own, and every other invisible character is written by its number.
-/

namespace Catalogue.Text

/-- The digits of a natural number in base sixteen, in lower case. -/
def hexDigits (n : Nat) : List Char := Nat.toDigits 16 n

/-- The printed form of one character. -/
def quoteChar (c : Char) : List Char :=
  if c = '\x00' then ['\\', '0']
  else if c = '\t' then ['\\', 't']
  else if c = '\r' then ['\\', 'r']
  else if c = '\n' then ['\\', 'n']
  else if c = '"' ∨ c = '\\' then ['\\', c]
  else if isInvisible c then ['\\', 'u', '{'] ++ hexDigits c.toNat ++ ['}']
  else [c]

/-- A text between quotes. -/
def quote (text : String) : String :=
  String.ofList ('"' :: text.toList.flatMap quoteChar ++ ['"'])

end Catalogue.Text
