import Catalogue.Text.Numeral
import Catalogue.Text.Reader

/-!
# Blanks, strings and keys of TOML

A line ends with a line feed, in front of which a carriage return may stand. Strings stand between
quotes of two kinds: double quotes admit escapes, single quotes do not. Three quotes in place of one
let a string go on over lines.
-/

namespace Catalogue.Settings.Toml

open Text (Reader readChar)

/-- Whether a character may stand between the tokens of a line. -/
def isBlank (c : Char) : Bool := c = ' ' ∨ c = '\t'

/-- Whether a character may stand neither in a comment nor in a string. -/
def isControl (c : Char) : Bool := (c.toNat < 0x20 ∧ c ≠ '\t') ∨ c.toNat = 0x7F

/-- A text behind its leading blanks. -/
def skipBlanks (text : List Char) : List Char := text.dropWhile isBlank

/-- Reads the end of a line. -/
def readBreak : Reader Unit
  | '\n' :: rest => some ((), rest)
  | '\r' :: '\n' :: rest => some ((), rest)
  | _ => none

/-- Passes over a comment and the end of its line. -/
def skipComment : List Char → Option (List Char)
  | [] => some []
  | '\n' :: rest => some rest
  | '\r' :: '\n' :: rest => some rest
  | c :: rest => if isControl c then none else skipComment rest

/-- Passes over blanks, a comment and the end of the line. -/
def skipLine (text : List Char) : Option (List Char) :=
  match skipBlanks text with
  | [] => some []
  | '#' :: rest => skipComment rest
  | text => (readBreak text).map (·.2)

/-- Passes over blanks and ends of lines. -/
def skipBreaks : List Char → List Char
  | ' ' :: rest => skipBreaks rest
  | '\t' :: rest => skipBreaks rest
  | '\n' :: rest => skipBreaks rest
  | '\r' :: '\n' :: rest => skipBreaks rest
  | text => text

/-- Passes over blanks, ends of lines and at most `limit` comments. -/
def skipSpace : Nat → List Char → Option (List Char)
  | 0, text => some text
  | limit + 1, text =>
    match skipBreaks text with
    | '#' :: rest => (skipComment rest).bind (skipSpace limit)
    | text => some text

/-! ### Strings -/

/-- Reads the character of a number of so many hexadecimal digits. -/
def readNumbered (width : Nat) : Reader Char := fun text =>
  let digits := (text.take width).filterMap (Numeral.digitIn? 16)
  let n := Numeral.ofDigits 16 digits
  if digits.length = width ∧ n.isValidChar then some (Char.ofNat n, text.drop width) else none

/-- Reads an escape behind its backslash. -/
def readEscape : Reader Char
  | 'b' :: rest => some ('\x08', rest)
  | 't' :: rest => some ('\t', rest)
  | 'n' :: rest => some ('\n', rest)
  | 'f' :: rest => some ('\x0C', rest)
  | 'r' :: rest => some ('\r', rest)
  | '"' :: rest => some ('"', rest)
  | '\\' :: rest => some ('\\', rest)
  | 'u' :: rest => readNumbered 4 rest
  | 'U' :: rest => readNumbered 8 rest
  | _ => none

/-- Reads a string in double quotes, and at most `limit` characters of it. `front` holds those read
so far, latest first. -/
def readQuoted (front : List Char) : Nat → Reader String
  | 0, _ => none
  | _ + 1, [] => none
  | _ + 1, '"' :: rest => some (String.ofList front.reverse, rest)
  | limit + 1, '\\' :: rest => do
    let (c, rest) ← readEscape rest
    readQuoted (c :: front) limit rest
  | limit + 1, c :: rest => if isControl c then none else readQuoted (c :: front) limit rest

/-- The end of a string with three quotes: of the quotes that follow, two still belong to it. -/
def closeLong (quote : Char) (front rest : List Char) : String × List Char :=
  let more := (rest.take 2).takeWhile (· = quote)
  (String.ofList (front.reverse ++ more), rest.drop more.length)

/-- Reads a string in three double quotes, and at most `limit` characters of it. A backslash at the
end of a line takes it out together with all blanks and ends of lines behind it. -/
def readLongQuoted (front : List Char) : Nat → Reader String
  | 0, _ => none
  | _ + 1, [] => none
  | _ + 1, '"' :: '"' :: '"' :: rest => some (closeLong '"' front rest)
  | limit + 1, '\\' :: rest =>
    match readBreak (skipBlanks rest) with
    | some (_, rest) => readLongQuoted front limit (skipBreaks rest)
    | none => do
      let (c, rest) ← readEscape rest
      readLongQuoted (c :: front) limit rest
  | limit + 1, c :: rest =>
    match readBreak (c :: rest) with
    | some (_, rest) => readLongQuoted ('\n' :: front) limit rest
    | none => if isControl c then none else readLongQuoted (c :: front) limit rest

/-- Reads a string in single quotes. -/
def readLiteral (front : List Char) : Reader String
  | [] => none
  | '\'' :: rest => some (String.ofList front.reverse, rest)
  | c :: rest => if isControl c then none else readLiteral (c :: front) rest

/-- Reads a string in three single quotes. -/
def readLongLiteral (front : List Char) : Reader String
  | [] => none
  | '\'' :: '\'' :: '\'' :: rest => some (closeLong '\'' front rest)
  | '\r' :: '\n' :: rest => readLongLiteral ('\n' :: front) rest
  | c :: rest =>
    if isControl c ∧ c ≠ '\n' then none else readLongLiteral (c :: front) rest

/-- A text behind the end of a line that it begins with, if it does. -/
def dropBreak (text : List Char) : List Char := ((readBreak text).map (·.2)).getD text

/-- Reads a string of one line with its quotes. -/
def readShortText : Reader String
  | '"' :: rest => readQuoted [] (rest.length + 1) rest
  | '\'' :: rest => readLiteral [] rest
  | _ => none

/-- Reads a string with its quotes. The end of a line right behind three opening quotes does not
belong to it. -/
def readText : Reader String
  | '"' :: '"' :: '"' :: rest => readLongQuoted [] (rest.length + 1) (dropBreak rest)
  | '\'' :: '\'' :: '\'' :: rest => readLongLiteral [] (dropBreak rest)
  | text => readShortText text

/-! ### Keys -/

/-- Whether a character may stand in a key without quotes. -/
def isKeyChar (c : Char) : Bool := c.isAlphanum || c = '_' || c = '-'

/-- Reads one key. -/
def readKey : Reader String := fun text =>
  match text.takeWhile isKeyChar with
  | [] => readShortText text
  | key => some (String.ofList key, text.drop key.length)

/-- Reads at most `limit` keys with dots between them. -/
def readKeys : Nat → Reader (List String)
  | 0, _ => none
  | limit + 1, text => do
    let (key, rest) ← readKey (skipBlanks text)
    match skipBlanks rest with
    | '.' :: rest =>
      let (keys, rest) ← readKeys limit rest
      return (key :: keys, rest)
    | rest => return ([key], rest)

/-- Reads a path of keys and the blanks around it. -/
def readPath : Reader (List String) := fun text => readKeys (text.length + 1) text

end Catalogue.Settings.Toml
