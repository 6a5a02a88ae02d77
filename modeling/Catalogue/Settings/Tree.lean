import Catalogue.Json.Flaw

/-!
# Trees of settings

Files and the environment give trees: tables of values that may themselves be tables. Sources are
laid over one another key by key, a later one winning, so a table never hides the keys of another
table that it does not mention.
-/

namespace Catalogue.Settings

/-- A value of a settings source. -/
inductive Tree where
  | nothing
  | boolean (value : Bool)
  | integer (value : Int)
  | float (value : Float)
  | text (value : String)
  | list (items : List Tree)
  | table (entries : List (String × Tree))

namespace Tree

/-- Entries with one key set to a value. -/
def put (key : String) (value : Tree) : List (String × Tree) → List (String × Tree)
  | [] => [(key, value)]
  | (k, v) :: rest => if k = key then (key, value) :: rest else (k, v) :: put key value rest

/-- The entries of a table; anything else has none. -/
def entries : Tree → List (String × Tree)
  | .table entries => entries
  | _ => []

/-- The value of a key in a table. -/
def get? (tree : Tree) (key : String) : Option Tree := tree.entries.lookup key

/-- What the entries of a table are laid over: what stood there before, or an empty table in the
place of nothing. -/
def ground : Option Tree → Tree
  | none | some .nothing => .table []
  | some old => old

mutual

/-- Lays a value over what stood there before. Of a table the entries are laid over it, any other
value replaces it. -/
def layered (old : Option Tree) : Tree → Tree
  | .table new => layerEntries (ground old) new
  | value => value

/-- Lays entries over a value one by one. With the first of them it becomes a table. -/
def layerEntries (old : Tree) : List (String × Tree) → Tree
  | [] => old
  | (key, value) :: rest =>
    layerEntries (.table (put key (layered (old.get? key) value) old.entries)) rest

end

/-- A value under a path of keys. -/
def nest : List String → Tree → Tree
  | [], value => value
  | key :: rest, value => .table [(key, nest rest value)]

/-- Whether a character may stand in a key that is part of a path. -/
def isPathChar (c : Char) : Bool := c.isAlphanum || c = '_' || c = '-'

/-- The keys of a path. A text that is no path is a key itself. -/
def pathOf (key : String) : List String :=
  let parts := key.toList.splitOn '.'
  if parts.all fun part => !part.isEmpty && part.all isPathChar then parts.map String.ofList
  else [key]

/-- Lays the entries of a source over a tree, where keys at the top may be paths. -/
def withSource (tree : Tree) (source : List (String × Tree)) : Tree :=
  source.foldl (fun tree (key, value) => layered (some tree) (nest (pathOf key) value)) tree

/-- Numbers in texts: every digit is written out and a whole number has no point. -/
def floatLayout : Shortest.Layout := ⟨none, []⟩

/-- The natural number of so many bits that a value stands for. -/
def toUnsigned? (bits : Nat) (tree : Tree) : Option Nat :=
  let wide : Option Nat :=
    match tree with
    | .integer i => if 0 ≤ i then some i.toNat else none
    | .boolean b => some b.toNat
    | .float x => some x.round.toUInt64.toNat
    | .text s =>
      let word := s.toLower
      if word ∈ ["true", "on", "yes"] then some 1
      else if word ∈ ["false", "off", "no"] then some 0
      else Numeral.readUnsigned? 64 s
    | _ => none
  wide.filter fun n => (Numeral.Range.unsigned bits).holds n

/-- The truth value that a value stands for. -/
def toBool? : Tree → Option Bool
  | .boolean b => some b
  | .integer i => some (i != 0)
  | .float x => some (x != 0)
  | .text s =>
    let word := s.toLower
    if word ∈ ["1", "true", "on", "yes"] then some true
    else if word ∈ ["0", "false", "off", "no"] then some false
    else none
  | _ => none

/-- The text that a value stands for. -/
def toText? : Tree → Option String
  | .text s => some s
  | .boolean b => some (if b then "true" else "false")
  | .integer i => some (String.ofList (Numeral.ofInt i))
  | .float x => some (floatLayout.text x)
  | _ => none

end Tree

end Catalogue.Settings
