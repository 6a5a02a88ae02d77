/-!
# Reading from the front of a text

A reader takes what it recognises off the front and gives it together with what is left.
-/

namespace Catalogue.Text

/-- A reader of a front of a text. -/
abbrev Reader (α : Type) := List Char → Option (α × List Char)

/-- Reads one character. -/
def readChar (c : Char) : Reader Unit
  | [] => none
  | d :: rest => if c = d then some ((), rest) else none

/-- Splits a text at the first occurrence of a character. -/
def splitFirst (separator : Char) (text : List Char) : List Char × Option (List Char) :=
  match text.span (· ≠ separator) with
  | (front, []) => (front, none)
  | (front, _ :: back) => (front, some back)

/-- Whether a text has a part of some wording. -/
def occursIn (part : List Char) : List Char → Bool
  | [] => part.isEmpty
  | c :: rest => part.isPrefixOf (c :: rest) || occursIn part rest

end Catalogue.Text
