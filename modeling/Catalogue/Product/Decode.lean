import Catalogue.Json.Member
import Catalogue.Product.Basic

/-!
# Products from JSON text

A record is read from an object, whose members may come in any order, or from a list of its fields
in the declared order. A product skips members that it does not know; a draft refuses them. A member
that comes twice, and one that is missing, are faults of both.
-/

namespace Catalogue

/-- The fields of a product. -/
inductive Field where
  | id
  | name
  | info
  deriving DecidableEq, Repr

/-- The key of a field. -/
def Field.key : Field → String
  | .id => "id"
  | .name => "name"
  | .info => "additionalInfo"

/-- The fields read so far. -/
structure Members where
  id : Option Int64 := none
  name : Option String := none
  info : Option String := none
  deriving DecidableEq, Repr

namespace Members

/-- Whether a field has been read. -/
def has (seen : Members) : Field → Bool
  | .id => seen.id.isSome
  | .name => seen.name.isSome
  | .info => seen.info.isSome

/-- Reads the value of a field. -/
def read (seen : Members) (field : Field) (input : Json.Input) :
    Except Json.Flaw (Members × Json.Input) :=
  match field with
  | .id => (Json.readInt64Value input).map fun (v, rest) => ({ seen with id := some v }, rest)
  | .name => (Json.readTextValue input).map fun (v, rest) => ({ seen with name := some v }, rest)
  | .info => (Json.readTextValue input).map fun (v, rest) => ({ seen with info := some v }, rest)

/-- The draft that was read, or the first field that is missing. -/
def toDraft (seen : Members) : Except Field Draft :=
  match seen.name, seen.info with
  | some name, some info => .ok ⟨name, info⟩
  | none, _ => .error .name
  | _, none => .error .info

/-- The product that was read, or the first field that is missing. -/
def toProduct (seen : Members) : Except Field Product :=
  match seen.id with
  | some id => seen.toDraft.map fun draft => draft.withId id
  | none => .error .id

end Members

/-- How a record is read. -/
structure Schema (α : Type) where
  /-- What messages call the record. -/
  title : String
  /-- The fields in their declared order. -/
  fields : List Field
  /-- Whether other members are refused. -/
  strict : Bool
  /-- The record of its fields, or the first one missing. -/
  build : Members → Except Field α

/-- The schema of a draft. -/
def Draft.schema : Schema Draft := ⟨"struct NewProduct", [.name, .info], true, Members.toDraft⟩

/-- The schema of a product. -/
def Product.schema : Schema Product :=
  ⟨"struct Product", [.id, .name, .info], false, Members.toProduct⟩

namespace Schema

variable {α : Type}

/-- The field that a key names. -/
def field? (schema : Schema α) (key : String) : Option Field :=
  schema.fields.find? fun field => field.key == key

/-- Reads what belongs to a key: a value of the record, once, or a value to pass over. -/
def readMember (schema : Schema α) (seen : Members) (key : String) (input : Json.Input) :
    Except Json.Flaw (Members × Json.Input) :=
  match schema.field? key with
  | some field =>
    if seen.has field then .error (.inObject (.duplicateField field.key) input)
    else
      match Json.readColon input with
      | .ok rest => seen.read field rest
      | .error flaw => .error flaw
  | none =>
    if schema.strict then
      .error (.inObject (.unknownField key (schema.fields.map Field.key)) input)
    else
      match Json.readColon input with
      | .ok rest => (Json.skipValue [] rest).map fun left => (seen, left)
      | .error flaw => .error flaw

/-- Reads members up to and with the closing brace, and at most `limit` of them. -/
def readMembers (schema : Schema α) (first : Bool) (seen : Members) (input : Json.Input) :
    Nat → Except Json.Flaw (Members × Json.Input)
  | 0 => .error (.facing .endInObject [])
  | limit + 1 =>
    match Json.nextMember first input with
    | .error flaw => .error flaw
    | .ok (.close rest) => .ok (seen, rest)
    | .ok (.key key rest) =>
      match schema.readMember seen key rest with
      | .error flaw => .error flaw
      | .ok (seen, rest) => schema.readMembers false seen rest limit

/-- Reads an object behind its opening brace. Every member takes input, so the length of the input
bounds their number. -/
def readObject (schema : Schema α) (input : Json.Input) : Except Json.Flaw (α × Json.Input) :=
  match schema.readMembers true {} input (input.length + 1) with
  | .error flaw => .error flaw
  | .ok (seen, rest) =>
    match schema.build seen with
    | .ok record => .ok (record, rest)
    | .error field => .error (.after (.missingField field.key) rest)

/-- Reads the fields of a list, of which `count` have been read. -/
def readElements (schema : Schema α) (count : Nat) (seen : Members) (input : Json.Input) :
    List Field → Except Json.Flaw (Members × Json.Input)
  | [] => (Json.closeList input).map fun rest => (seen, rest)
  | field :: fields =>
    match Json.nextElement (count == 0) input with
    | .error flaw => .error flaw
    | .ok (.close rest) =>
      .error (.after (.wrongLength count schema.title schema.fields.length) rest)
    | .ok (.value input) =>
      match seen.read field input with
      | .error flaw => .error flaw
      | .ok (seen, rest) => schema.readElements (count + 1) seen rest fields

/-- Reads a list behind its opening bracket. -/
def readList (schema : Schema α) (input : Json.Input) : Except Json.Flaw (α × Json.Input) :=
  match schema.readElements 0 {} input schema.fields with
  | .error flaw => .error flaw
  | .ok (seen, rest) =>
    match schema.build seen with
    | .ok record => .ok (record, rest)
    | .error field => .error (.after (.missingField field.key) rest)

/-- Reads a record. -/
def read (schema : Schema α) (input : Json.Input) : Except Json.Flaw (α × Json.Input) :=
  match Json.skipBlanks input with
  | [] => .error (.facing .endInValue [])
  | x :: rest =>
    if x = Json.Byte.openBracket then schema.readList rest
    else if x = Json.Byte.openBrace then schema.readObject rest
    else .error (Json.mismatch schema.title x rest)

/-- Reads a whole text as a record. -/
def decode (schema : Schema α) (input : Json.Input) : Except Json.Flaw α :=
  match schema.read input with
  | .error flaw => .error flaw
  | .ok (record, rest) =>
    match Json.skipBlanks rest with
    | [] => .ok record
    | x :: left => .error (.facing .trailingCharacters (x :: left))

end Schema

/-- Reads a product. -/
def Product.decode (input : Json.Input) : Except Json.Flaw Product := Product.schema.decode input

/-- Reads a draft. -/
def Draft.decode (input : Json.Input) : Except Json.Flaw Draft := Draft.schema.decode input

end Catalogue
