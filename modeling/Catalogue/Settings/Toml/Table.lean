import Catalogue.Settings.Tree

/-!
# Tables that are being filled

A table is opened by a header, or comes into being because a longer header or a dotted key names it
on the way. No key is set twice, no header is repeated, and dotted keys do not add to a table that a
header opened.
-/

namespace Catalogue.Settings.Toml

/-- How a table came into being. -/
inductive Origin where
  | header
  | longerHeader
  | dottedKey
  deriving DecidableEq, Repr

/-- What stands under a key: a finished value, a table, or a list of tables of which only the last
one is still filled. -/
inductive Node where
  | value (tree : Tree)
  | table (origin : Origin) (entries : List (String × Node))
  | tables (earlier : List Tree) (latest : List (String × Node))

/-- What stands under the keys of a table. -/
abbrev Entries := List (String × Node)

mutual

/-- The value that a node holds. -/
def Node.toTree : Node → Tree
  | .value tree => tree
  | .table _ entries => .table (treesOf entries)
  | .tables earlier latest => .list (earlier ++ [.table (treesOf latest)])

/-- The values under the keys of a table. -/
def treesOf : List (String × Node) → List (String × Tree)
  | [] => []
  | (key, node) :: rest => (key, node.toTree) :: treesOf rest

end

/-- Changes what stands under a key, or puts something there, unless the change is refused. -/
def change (key : String) (f : Option Node → Option Node) : Entries → Option Entries
  | [] => (f none).map fun node => [(key, node)]
  | (k, node) :: rest =>
    if k = key then (f (some node)).map fun node => (key, node) :: rest
    else (change key f rest).map fun rest => (k, node) :: rest

/-- Goes down a path from a table and changes the table at its end. Tables that are missing on the
way are made; a dotted key may not go through a table that a header opened. -/
def within (dotted : Bool) (finish : Origin → Entries → Option (Origin × Entries)) :
    List String → Origin → Entries → Option (Origin × Entries)
  | [], origin, entries => finish origin entries
  | key :: path, origin, entries =>
    let step : Option Node → Option Node
      | none =>
        let made : Origin := if dotted then .dottedKey else .longerHeader
        (within dotted finish path made []).map fun (o, es) => .table o es
      | some (.value _) => none
      | some (.table o es) =>
        if dotted ∧ o = .header then none
        else (within dotted finish path o es).map fun (o, es) => .table o es
      | some (.tables earlier latest) =>
        (within dotted finish path .header latest).map fun (_, es) => .tables earlier es
    (change key step entries).map fun entries => (origin, entries)

/-- Sets a key at the end of a path of dotted keys to a value. -/
def assign (path : List String) (value : Tree) (origin : Origin) (entries : Entries) :
    Option (Origin × Entries) := do
  let key ← path.getLast?
  let front := path.dropLast
  let finish (origin : Origin) (entries : Entries) : Option (Origin × Entries) :=
    if (origin = .dottedKey) ↔ front = [] then none
    else
      let put : Option Node → Option Node
        | none => some (.value value)
        | some _ => none
      (change key put entries).map fun entries => (origin, entries)
  within true finish front origin entries

/-- Opens what a header names, at the end of a path of keys. -/
def openAt (f : Option Node → Option Node) (path : List String) (root : Entries) :
    Option Entries := do
  let key ← path.getLast?
  let finish (origin : Origin) (entries : Entries) : Option (Origin × Entries) :=
    (change key f entries).map fun entries => (origin, entries)
  (within false finish path.dropLast .header root).map (·.2)

/-- Opens a table. It may be there already, but only because a longer header named it. -/
def openTable : Option Node → Option Node
  | none => some (.table .header [])
  | some (.table .longerHeader entries) => some (.table .header entries)
  | some _ => none

/-- Opens a further table of a list. -/
def openElement : Option Node → Option Node
  | none => some (.tables [] [])
  | some (.tables earlier latest) => some (.tables (earlier ++ [.table (treesOf latest)]) [])
  | some _ => none

end Catalogue.Settings.Toml
