import Catalogue.Text.Reader
import Catalogue.Text.Utf8

/-!
# Request targets

A target is a path and an optional query; a fragment is no part of it. Paths are compared as they
are written. Only a path segment that stands for a parameter is decoded, and pairs of a query are
decoded as an HTML form writes them.
-/

namespace Catalogue.Http

/-- The path and the query of a request, both as they were written. -/
structure Target where
  path : String
  query : Option String
  deriving DecidableEq, Repr

/-- The target of a written address without its fragment. An empty path is that of the root. -/
def Target.ofText (text : String) : Target :=
  let (path, query) := Text.splitFirst '?' (Text.splitFirst '#' text.toList).1
  ⟨if path = [] then "/" else String.ofList path, query.map String.ofList⟩

/-- The value of a hexadecimal digit. -/
def hexDigit? (x : UInt8) : Option UInt8 :=
  if 0x30 ≤ x ∧ x ≤ 0x39 then some (x - 0x30)
  else if 0x41 ≤ x ∧ x ≤ 0x46 then some (x - 0x41 + 10)
  else if 0x61 ≤ x ∧ x ≤ 0x66 then some (x - 0x61 + 10)
  else none

/-- Replaces each percent sign with two hexadecimal digits by the byte of that number. Other percent
signs stand for themselves. -/
def percentDecode : List UInt8 → List UInt8
  | [] => []
  | 0x25 :: a :: b :: rest =>
    match hexDigit? a, hexDigit? b with
    | some high, some low => (high * 16 + low) :: percentDecode rest
    | _, _ => 0x25 :: percentDecode (a :: b :: rest)
  | x :: rest => x :: percentDecode rest

/-- The text of a path segment, if it is text. -/
def decodeSegment? (segment : String) : Option String :=
  Utf8.strict? (percentDecode (Utf8.bytes segment))

/-- The text of a key or a value in a query. -/
def decodeFormPart (part : List UInt8) : String :=
  Utf8.lossy (percentDecode (part.map fun x => if x = 0x2B then 0x20 else x))

/-- The pairs of a query in order. Empty pieces are left out, and a piece without an equals sign has
an empty value. -/
def formPairs (query : String) : List (String × String) :=
  let pieces := (Utf8.bytes query).splitOn 0x26
  (pieces.filter (!·.isEmpty)).map fun piece =>
    let (key, value) := piece.span (· ≠ 0x3D)
    (decodeFormPart key, decodeFormPart (value.drop 1))

end Catalogue.Http
