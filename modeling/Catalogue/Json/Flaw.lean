import Catalogue.Text.Quoted
import Catalogue.Text.Shortest

/-!
# Faults of a JSON text

A fault has a cause and a place. While a text is read the place is kept as the number of bytes not
yet read; line and column follow from it once the whole text is known. A fault may count the byte in
front of the reader as read (`Flaw.after`) or also the byte that it only looks at (`Flaw.facing`).
-/

namespace Catalogue.Json

/-- Bytes still to be read. -/
abbrev Input := List UInt8

/-- What stands where something else is expected. -/
inductive Found where
  | null
  | boolean (value : Bool)
  | integer (value : Int)
  | float (value : Float)
  | text (value : String)
  | sequence
  | map

/-- Floating-point numbers in messages: a point in every number below `10 ^ 16`, an exponent with a
sign in the others and in those below `10 ^ -5`. -/
def floatLayout : Shortest.Layout := ⟨some (-5, 15), ['.', '0']⟩

/-- The wording of what was found. -/
def Found.describe : Found → String
  | .null => "null"
  | .boolean b => s!"boolean `{b}`"
  | .integer i => s!"integer `{i}`"
  | .float x => s!"floating point `{floatLayout.text x}`"
  | .text s => "string " ++ Text.quote s
  | .sequence => "sequence"
  | .map => "map"

/-- Why a text is not JSON, or not the JSON of the record asked for. -/
inductive Cause where
  | endInValue
  | endInObject
  | endInList
  | endInString
  | expectedValue
  | expectedIdent
  | expectedColon
  | expectedCommaOrBrace
  | expectedCommaOrBracket
  | keyNotAString
  | trailingComma
  | trailingCharacters
  | invalidNumber
  | numberOutOfRange
  | invalidEscape
  | invalidCodePoint
  | loneSurrogate
  | unfinishedSurrogatePair
  | controlCharacter
  | tooDeep
  | missingField (key : String)
  | duplicateField (key : String)
  | unknownField (key : String) (expected : List String)
  | wrongLength (length : Nat) (record : String) (expected : Nat)
  | wrongType (found : Found) (expected : String)
  | wrongValue (found : Found) (expected : String)

/-- Names in backticks, as alternatives. -/
def alternatives (names : List String) : String :=
  " or ".intercalate (names.map fun n => s!"`{n}`")

/-- The wording of a cause. -/
def Cause.message : Cause → String
  | .endInValue => "EOF while parsing a value"
  | .endInObject => "EOF while parsing an object"
  | .endInList => "EOF while parsing a list"
  | .endInString => "EOF while parsing a string"
  | .expectedValue => "expected value"
  | .expectedIdent => "expected ident"
  | .expectedColon => "expected `:`"
  | .expectedCommaOrBrace => "expected `,` or `\x7d`"
  | .expectedCommaOrBracket => "expected `,` or `]`"
  | .keyNotAString => "key must be a string"
  | .trailingComma => "trailing comma"
  | .trailingCharacters => "trailing characters"
  | .invalidNumber => "invalid number"
  | .numberOutOfRange => "number out of range"
  | .invalidEscape => "invalid escape"
  | .invalidCodePoint => "invalid unicode code point"
  | .loneSurrogate => "lone leading surrogate in hex escape"
  | .unfinishedSurrogatePair => "unexpected end of hex escape"
  | .controlCharacter => "control character (\\u0000-\\u001F) found while parsing a string"
  | .tooDeep => "recursion limit exceeded"
  | .missingField key => s!"missing field `{key}`"
  | .duplicateField key => s!"duplicate field `{key}`"
  | .unknownField key expected => s!"unknown field `{key}`, expected " ++ alternatives expected
  | .wrongLength length record expected =>
    s!"invalid length {length}, expected {record} with {expected} elements"
  | .wrongType found expected => "invalid type: " ++ found.describe ++ s!", expected {expected}"
  | .wrongValue found expected => "invalid value: " ++ found.describe ++ s!", expected {expected}"

/-- A cause, and how many bytes were left unread at the place that its message names. -/
structure Flaw where
  cause : Cause
  unread : Nat

/-- A fault of what was read last, in front of `rest`. -/
def Flaw.after (cause : Cause) (rest : Input) : Flaw := ⟨cause, rest.length⟩

/-- A fault of the first byte of `rest`, which counts as read if there is one. -/
def Flaw.facing (cause : Cause) (rest : Input) : Flaw := ⟨cause, rest.length - 1⟩

/-- A line, and the number of bytes read of it. -/
structure Place where
  line : Nat
  column : Nat
  deriving DecidableEq, Repr

/-- The place behind a front of a text. -/
def Place.behind (front : Input) : Place :=
  ⟨1 + front.count 0x0A, (front.reverse.takeWhile (· ≠ 0x0A)).length⟩

/-- The wording of a fault of the whole text `source`. -/
def Flaw.message (source : Input) (flaw : Flaw) : String :=
  let place := Place.behind (source.take (source.length - flaw.unread))
  s!"{flaw.cause.message} at line {place.line} column {place.column}"

end Catalogue.Json
