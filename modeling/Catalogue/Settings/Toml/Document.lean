import Catalogue.Settings.Toml.Scalar
import Catalogue.Settings.Toml.Table
import Catalogue.Settings.Toml.Text

/-!
# Settings in TOML

A file is a row of lines: a header, which opens a table, or a path of keys with a value, which
belongs to the table opened last. No reason is given for a text that is refused.
-/

namespace Catalogue.Settings.Toml

open Text (Reader readChar)

/-- Reads a number or a truth value. -/
def readWord : Reader Tree := fun text =>
  let word := text.takeWhile isWordChar
  (ofWord? word).map fun value => (value, text.drop word.length)

/-- Reads elements up to the closing bracket, and at most `limit` of them. A comma may stand behind
the last one. -/
def readElements (read : Reader Tree) : Nat → Reader (List Tree)
  | 0, _ => none
  | limit + 1, text => do
    let text ← skipSpace text.length text
    match text with
    | ']' :: rest => return ([], rest)
    | text =>
      let (value, rest) ← read text
      let rest ← skipSpace rest.length rest
      match rest with
      | ',' :: rest =>
        let (values, rest) ← readElements read limit rest
        return (value :: values, rest)
      | ']' :: rest => return ([value], rest)
      | _ => none

/-- Reads a path of keys, an equals sign and a value. -/
def readAssignment (read : Reader Tree) : Reader (List String × Tree) := fun text => do
  let (path, text) ← readPath text
  let (_, text) ← readChar '=' text
  let (value, text) ← read (skipBlanks text)
  return ((path, value), text)

/-- Reads at least one assignment and at most `limit`, up to the closing brace. -/
def readAssignments (read : Reader Tree) (entries : Entries) : Nat → Reader Entries
  | 0, _ => none
  | limit + 1, text => do
    let ((path, value), rest) ← readAssignment read text
    let (_, entries) ← assign path value .header entries
    match skipBlanks rest with
    | ',' :: rest => readAssignments read entries limit rest
    | '\x7d' :: rest => return (entries, rest)
    | _ => none

/-- Reads a table behind its opening brace. -/
def readInline (read : Reader Tree) : Reader Entries := fun text =>
  match skipBlanks text with
  | '\x7d' :: rest => some ([], rest)
  | text => readAssignments read [] (text.length + 1) text

/-- Reads a value in which at most `depth` brackets are open at once. -/
def readValue : Nat → Reader Tree
  | depth, text =>
    match text with
    | '[' :: rest =>
      match depth with
      | 0 => none
      | depth + 1 =>
        (readElements (readValue depth) (rest.length + 1) rest).map fun (items, rest) =>
          (.list items, rest)
    | '\x7b' :: rest =>
      match depth with
      | 0 => none
      | depth + 1 =>
        (readInline (readValue depth) rest).map fun (entries, rest) =>
          (.table (treesOf entries), rest)
    | c :: rest =>
      if c = '"' ∨ c = '\'' then (readText (c :: rest)).map fun (s, rest) => (.text s, rest)
      else readWord (c :: rest)
    | [] => none

/-- How many brackets may be open at once. -/
def depthLimit : Nat := 80

/-- What has been read of a file: the outermost table, and the path of the table opened last. -/
structure Document where
  root : Entries := []
  current : List String := []

namespace Document

/-- Adds what one line says. -/
def readStatement (document : Document) : Reader Document
  | '[' :: '[' :: rest => do
    let (path, rest) ← readPath rest
    let (_, rest) ← readChar ']' rest
    let (_, rest) ← readChar ']' rest
    let root ← openAt openElement path document.root
    return (⟨root, path⟩, rest)
  | '[' :: rest => do
    let (path, rest) ← readPath rest
    let (_, rest) ← readChar ']' rest
    let root ← openAt openTable path document.root
    return (⟨root, path⟩, rest)
  | text => do
    let ((path, value), rest) ← readAssignment (readValue depthLimit) text
    let (_, root) ← within false (assign path value) document.current .header document.root
    return ({ document with root }, rest)

/-- Whether a line has nothing to say. -/
def isSilent : List Char → Bool
  | [] => true
  | c :: _ => c ∈ ['#', '\n', '\r']

/-- Reads at most `limit` lines. -/
def readLines (document : Document) : Nat → List Char → Option Document
  | 0, text => if text = [] then some document else none
  | limit + 1, text =>
    match skipBlanks text with
    | [] => some document
    | text => do
      if isSilent text then readLines document limit (← skipLine text)
      else
        let (document, rest) ← document.readStatement text
        readLines document limit (← skipLine rest)

end Document

end Toml

/-- Reads a file. -/
def Tree.entriesOfToml? (text : String) : Option (List (String × Tree)) :=
  (Toml.Document.readLines {} (text.length + 1) text.toList).map fun document =>
    Toml.treesOf document.root

end Catalogue.Settings
