import Catalogue.Text.Numeral

/-!
# Writing JSON

Strings are written with the fewest escapes: only the quote, the backslash and the control
characters need one, and five of those have a letter of their own. All else stands for itself.
-/

namespace Catalogue.Json

/-- A hexadecimal digit in lower case. -/
def hexChar (n : Nat) : Char := Nat.digitChar n

/-- The letter that stands for a character behind a backslash. -/
def escapeLetter? (c : Char) : Option Char :=
  if c = '"' then some '"'
  else if c = '\\' then some '\\'
  else if c = '\x08' then some 'b'
  else if c = '\x0C' then some 'f'
  else if c = '\n' then some 'n'
  else if c = '\r' then some 'r'
  else if c = '\t' then some 't'
  else none

/-- The written form of a character of a string. -/
def escapeChar (c : Char) : List Char :=
  match escapeLetter? c with
  | some letter => ['\\', letter]
  | none =>
    if c.toNat < 0x20 then ['\\', 'u', '0', '0', hexChar (c.toNat / 16), hexChar (c.toNat % 16)]
    else [c]

/-- A string with its quotes. -/
def writeText (text : String) : List Char := '"' :: text.toList.flatMap escapeChar ++ ['"']

/-- Members between braces, each a key and the written form of its value. -/
def writeObject (members : List (String × List Char)) : List Char :=
  '{' :: [','].intercalate (members.map fun (key, value) => writeText key ++ ':' :: value) ++ ['}']

/-- Elements between brackets. -/
def writeList (elements : List (List Char)) : List Char :=
  '[' :: [','].intercalate elements ++ [']']

end Catalogue.Json
