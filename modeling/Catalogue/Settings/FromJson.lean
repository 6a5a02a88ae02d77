import Catalogue.Json.Member
import Catalogue.Settings.Tree

/-!
# Settings in JSON

A file holds one object. Values may be nested up to a fixed depth; of two members with one key the
later counts. No reason is given for a text that is refused.
-/

namespace Catalogue.Settings.Tree

/-- A reader of a value in front of the input. -/
abbrev JsonReader := Json.Input → Option (Tree × Json.Input)

/-- The value that a number stands for. -/
def ofJsonNumber : Json.Number → Tree
  | .whole i => .integer i
  | .rounded x => .float x

/-- Reads a value that is no list and no object, behind its first byte. -/
def readJsonScalar (x : UInt8) (rest : Json.Input) : Option (Tree × Json.Input) :=
  if x = Json.Byte.n then word Json.restOfNull .nothing
  else if x = Json.Byte.t then word Json.restOfTrue (.boolean true)
  else if x = Json.Byte.f then word Json.restOfFalse (.boolean false)
  else if x = Json.Byte.quote then
    (Json.readText rest).toOption.map fun (s, left) => (.text s, left)
  else if x = Json.Byte.minus then number (Json.readNumber true rest)
  else if Json.Byte.isDigit x then number (Json.readNumber false (x :: rest))
  else none
where
  /-- Reads the rest of a fixed word. -/
  word (letters : List UInt8) (value : Tree) : Option (Tree × Json.Input) :=
    (Json.readWord letters rest).toOption.map fun left => (value, left)
  /-- The value of a number that was read. -/
  number (read : Except Json.Flaw (Json.Number × Json.Input)) : Option (Tree × Json.Input) :=
    read.toOption.map fun (n, left) => (ofJsonNumber n, left)

/-- Reads elements up to the closing bracket, and at most `limit` of them. -/
def readJsonElements (read : JsonReader) (first : Bool) (input : Json.Input) :
    Nat → Option (List Tree × Json.Input)
  | 0 => none
  | limit + 1 =>
    match Json.nextElement first input with
    | .error _ => none
    | .ok (.close rest) => some ([], rest)
    | .ok (.value input) => do
      let (value, rest) ← read input
      let (values, rest) ← readJsonElements read false rest limit
      return (value :: values, rest)

/-- Reads members behind the entries in front of them, up to the closing brace and at most `limit`.
-/
def readJsonMembers (read : JsonReader) (first : Bool) (entries : List (String × Tree))
    (input : Json.Input) : Nat → Option (List (String × Tree) × Json.Input)
  | 0 => none
  | limit + 1 =>
    match Json.nextMember first input with
    | .error _ => none
    | .ok (.close rest) => some (entries, rest)
    | .ok (.key key rest) => do
      let rest ← (Json.readColon rest).toOption
      let (value, rest) ← read rest
      readJsonMembers read false (put key value entries) rest limit

/-- Reads a value in which at most `depth` brackets are open at once. -/
def readJson : Nat → JsonReader
  | depth, input =>
    match Json.skipBlanks input with
    | [] => none
    | x :: rest =>
      if x = Json.Byte.openBracket then
        match depth with
        | 0 => none
        | depth + 1 =>
          (readJsonElements (readJson depth) true rest (rest.length + 1)).map fun (items, left) =>
            (.list items, left)
      else if x = Json.Byte.openBrace then
        match depth with
        | 0 => none
        | depth + 1 =>
          (readJsonMembers (readJson depth) true [] rest (rest.length + 1)).map
            fun (entries, left) => (.table entries, left)
      else readJsonScalar x rest

/-- How many brackets may be open at once in a file. -/
def jsonDepth : Nat := 127

/-- Reads a file: one object and nothing behind it. -/
def entriesOfJson? (text : String) : Option (List (String × Tree)) :=
  match readJson jsonDepth (Utf8.bytes text) with
  | some (.table entries, rest) => if Json.skipBlanks rest = [] then some entries else none
  | _ => none

end Catalogue.Settings.Tree
