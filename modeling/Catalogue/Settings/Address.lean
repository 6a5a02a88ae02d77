import Catalogue.Text.Numeral
import Catalogue.Text.Reader

/-!
# Socket addresses

An address of version 4 is four decimal numbers, one of version 6 eight groups of hexadecimal digits
between brackets. A double colon stands for one or more groups of zero, and the last two groups may
be written as an address of version 4. Readers take a front of the text and give what is left.
-/

namespace Catalogue

/-- An address with a port. -/
inductive SocketAddress where
  | v4 (octets : List Nat) (port : Nat)
  | v6 (groups : List Nat) (zone : Nat) (port : Nat)
  deriving DecidableEq, Repr

namespace SocketAddress

open Text (Reader readChar)

/-- Reads a number of at most `width` digits that is at most `greatest`. Leading zeros are refused
where `padded` is false. -/
def readNumber (base : Nat) (width : Option Nat) (padded : Bool) (greatest : Nat) : Reader Nat :=
  fun text =>
    let digits := text.takeWhile fun c => (Numeral.digitIn? base c).isSome
    let value := Numeral.ofDigits base (digits.filterMap (Numeral.digitIn? base))
    if digits = [] ∨ width.any (· < digits.length) ∨ greatest < value then none
    else if !padded ∧ 1 < digits.length ∧ digits.head? = some '0' then none
    else some (value, text.drop digits.length)

/-- Reads a dot and a number of version 4. -/
def readDotOctet : Reader Nat := fun text => do
  let (_, text) ← readChar '.' text
  readNumber 10 (some 3) false 255 text

/-- Reads four numbers with dots between them. -/
def readOctets : Reader (List Nat) := fun text => do
  let (a, text) ← readNumber 10 (some 3) false 255 text
  let (b, text) ← readDotOctet text
  let (c, text) ← readDotOctet text
  let (d, text) ← readDotOctet text
  return ([a, b, c, d], text)

/-- Reads a colon and a port. -/
def readPort : Reader Nat := fun text => do
  let (_, text) ← readChar ':' text
  readNumber 10 none true 65535 text

/-- Goes on behind a colon, which the first group does not have. -/
def behindColon {α : Type} (first : Bool) (reader : Reader α) : Reader α := fun text =>
  if first then reader text
  else do
    let (_, text) ← readChar ':' text
    reader text

/-- The two groups of an address of version 4. -/
def groupsOfOctets (octets : List Nat) : List Nat :=
  [octets.getD 0 0 * 256 + octets.getD 1 0, octets.getD 2 0 * 256 + octets.getD 3 0]

/-- What was read of a row of groups: the groups, and whether an address of version 4 ended it. -/
structure Groups where
  groups : List Nat
  dotted : Bool
  deriving DecidableEq, Repr

/-- Reads groups with colons between them, at most `room`. Where there is room for two, an address
of version 4 may stand, and then ends the row. -/
def readGroups (first : Bool) : Nat → List Char → Groups × List Char
  | 0, text => (⟨[], false⟩, text)
  | room + 1, text =>
    let dotted := if 0 < room then behindColon first readOctets text else none
    match dotted with
    | some (octets, rest) => (⟨groupsOfOctets octets, true⟩, rest)
    | none =>
      match behindColon first (readNumber 16 (some 4) true 65535) text with
      | none => (⟨[], false⟩, text)
      | some (group, rest) =>
        let (more, rest) := readGroups false room rest
        (⟨group :: more.groups, more.dotted⟩, rest)

/-- Reads the eight groups of an address of version 6. -/
def readV6Groups : Reader (List Nat) := fun text =>
  let (head, rest) := readGroups true 8 text
  if head.groups.length = 8 then some (head.groups, rest)
  else if head.dotted then none
  else do
    let (_, rest) ← readChar ':' rest
    let (_, rest) ← readChar ':' rest
    let (tail, rest) := readGroups true (7 - head.groups.length) rest
    let zeros := List.replicate (8 - head.groups.length - tail.groups.length) 0
    return (head.groups ++ zeros ++ tail.groups, rest)

/-- Reads a zone, which is zero if none is written. -/
def readZone (text : List Char) : Nat × List Char :=
  let zone := do
    let (_, rest) ← readChar '%' text
    readNumber 10 none true 0xFFFFFFFF rest
  zone.getD (0, text)

/-- Reads an address of version 4 with its port. -/
def readV4 : Reader SocketAddress := fun text => do
  let (octets, text) ← readOctets text
  let (port, text) ← readPort text
  return (.v4 octets port, text)

/-- Reads an address of version 6 with its port. -/
def readV6 : Reader SocketAddress := fun text => do
  let (_, text) ← readChar '[' text
  let (groups, text) ← readV6Groups text
  let (zone, text) := readZone text
  let (_, text) ← readChar ']' text
  let (port, text) ← readPort text
  return (.v6 groups zone port, text)

/-- Reads a whole text as an address with a port. -/
def read? (text : List Char) : Option SocketAddress :=
  match (readV4 text).or (readV6 text) with
  | some (address, []) => some address
  | _ => none

/-- The address that a host and a port name. They are written one behind the other, with a colon
between them, and read together. -/
def ofHostPort? (host : String) (port : Nat) : Option SocketAddress :=
  read? (host.toList ++ ':' :: Numeral.ofNat port)

/-- Four numbers with dots between them. -/
def writeOctets (octets : List Nat) : List Char :=
  ['.'].intercalate (octets.map Numeral.ofNat)

/-- Groups with colons between them. -/
def writeGroups (groups : List Nat) : List Char :=
  [':'].intercalate (groups.map (Nat.toDigits 16))

/-- The length of the run of zeros that a list begins with. -/
def zeroRun (groups : List Nat) : Nat := (groups.takeWhile (· = 0)).length

/-- The first of the longest runs of zeros, as where it begins and how long it is, among the runs
that begin at `start` or later. -/
def longestRun : Nat → List Nat → Nat × Nat
  | start, [] => (start, 0)
  | start, g :: rest =>
    let here := zeroRun (g :: rest)
    let later := longestRun (start + 1) rest
    if later.2 ≤ here then (start, here) else later

/-- The eight groups of an address of version 6. The longest run of zeros is left out if it has at
least two, and addresses that stand for one of version 4 show it. -/
def writeV6Groups (groups : List Nat) : List Char :=
  if groups.take 6 = [0, 0, 0, 0, 0, 65535] then
    let low := groups.drop 6
    "::ffff:".toList ++ writeOctets (low.flatMap fun g => [g / 256, g % 256])
  else
    let (start, length) := longestRun 0 groups
    if 1 < length then
      writeGroups (groups.take start) ++ [':', ':'] ++ writeGroups (groups.drop (start + length))
    else writeGroups groups

/-- The text of an address. -/
def write : SocketAddress → List Char
  | .v4 octets port => writeOctets octets ++ ':' :: Numeral.ofNat port
  | .v6 groups zone port =>
    let mark := if zone = 0 then [] else '%' :: Numeral.ofNat zone
    '[' :: writeV6Groups groups ++ mark ++ ']' :: ':' :: Numeral.ofNat port

/-- The text of an address. -/
def text (address : SocketAddress) : String := String.ofList address.write

end SocketAddress

end Catalogue
