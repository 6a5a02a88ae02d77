import Catalogue.Json.Skip

/-!
# The members of an object and the elements of a list

One step at a time: what follows an opening bracket or a finished member. Scalar values are read
here too, with the fault that names what was found in their place.
-/

namespace Catalogue.Json

/-- What comes next inside an object. -/
inductive NextMember where
  | close (rest : Input)
  | key (key : String) (rest : Input)

/-- Reads up to the next key of an object or its closing brace. -/
def nextMember (first : Bool) (input : Input) : Except Flaw NextMember :=
  match skipBlanks input with
  | [] => .error (.facing .endInObject [])
  | x :: rest =>
    if x = Byte.closeBrace then .ok (.close rest)
    else if first then readKey x rest
    else if x = Byte.comma then
      match skipBlanks rest with
      | [] => .error (.facing .endInValue [])
      | y :: left =>
        if y = Byte.closeBrace then .error (.facing .trailingComma (y :: left)) else readKey y left
    else .error (.facing .expectedCommaOrBrace (x :: rest))
where
  /-- Reads a key that begins with `x`. -/
  readKey (x : UInt8) (rest : Input) : Except Flaw NextMember :=
    if x = Byte.quote then
      match readText rest with
      | .ok (key, left) => .ok (.key key left)
      | .error flaw => .error flaw
    else .error (.facing .keyNotAString (x :: rest))

theorem length_readKey_lt {x : UInt8} {input rest : Input} {key : String}
    (h : nextMember.readKey x input = .ok (.key key rest)) : rest.length < input.length := by
  unfold nextMember.readKey at h
  split at h
  · split at h
    · rename_i ht
      cases h; exact length_readText_lt ht
    · cases h
  · cases h

theorem length_nextMember_lt {first : Bool} {input rest : Input} {key : String}
    (h : nextMember first input = .ok (.key key rest)) : rest.length < input.length := by
  unfold nextMember at h
  split at h
  · cases h
  rename_i he
  have hx := length_lt_of_skipBlanks he
  split at h
  · cases h
  split at h
  · have := length_readKey_lt h; omega
  split at h
  · split at h
    · cases h
    · rename_i hy
      have hy := length_lt_of_skipBlanks hy
      split at h
      · cases h
      · have := length_readKey_lt h; omega
  · cases h

/-- A fault of a member whose key ends in front of `rest`. The object is closed there if it can be,
and the fault lies behind what was read to find that out. -/
def Flaw.inObject (cause : Cause) (rest : Input) : Flaw :=
  match skipBlanks rest with
  | [] => .after cause []
  | x :: left => .after cause (if x = Byte.closeBrace then left else x :: left)

/-- What comes next inside a list. -/
inductive NextElement where
  | close (rest : Input)
  | value (input : Input)

/-- Reads up to the next element of a list or its closing bracket. -/
def nextElement (first : Bool) (input : Input) : Except Flaw NextElement :=
  match skipBlanks input with
  | [] => .error (.facing .endInList [])
  | x :: rest =>
    if x = Byte.closeBracket then .ok (.close rest)
    else if first then .ok (.value (x :: rest))
    else if x = Byte.comma then
      match skipBlanks rest with
      | [] => .error (.facing .endInValue [])
      | y :: left =>
        if y = Byte.closeBracket then .error (.facing .trailingComma (y :: left))
        else .ok (.value (y :: left))
    else .error (.facing .expectedCommaOrBracket (x :: rest))

/-- Reads the closing bracket of a list that holds all the elements it should. -/
def closeList (input : Input) : Except Flaw Input :=
  match skipBlanks input with
  | [] => .error (.facing .endInList [])
  | x :: rest =>
    if x = Byte.closeBracket then .ok rest
    else if x = Byte.comma then
      match skipBlanks rest with
      | [] => .error (.facing .trailingCharacters [])
      | y :: left =>
        if y = Byte.closeBracket then .error (.facing .trailingComma (y :: left))
        else .error (.facing .trailingCharacters (y :: left))
    else .error (.facing .trailingCharacters (x :: rest))

/-- The fault of a value that begins with `x` and is not of the kind expected there. -/
def mismatch (expected : String) (x : UInt8) (rest : Input) : Flaw :=
  if x = Byte.n then word restOfNull .null
  else if x = Byte.t then word restOfTrue (.boolean true)
  else if x = Byte.f then word restOfFalse (.boolean false)
  else if x = Byte.minus then number (readNumber true rest)
  else if Byte.isDigit x then number (readNumber false (x :: rest))
  else if x = Byte.quote then
    match readText rest with
    | .ok (text, left) => .after (.wrongType (.text text) expected) left
    | .error flaw => flaw
  else if x = Byte.openBracket then .after (.wrongType .sequence expected) (x :: rest)
  else if x = Byte.openBrace then .after (.wrongType .map expected) (x :: rest)
  else .facing .expectedValue (x :: rest)
where
  /-- The fault of a fixed word. -/
  word (letters : List UInt8) (found : Found) : Flaw :=
    match readWord letters rest with
    | .ok left => .after (.wrongType found expected) left
    | .error flaw => flaw
  /-- The fault of a number. -/
  number (read : Except Flaw (Number × Input)) : Flaw :=
    match read with
    | .ok (n, left) => .after (.wrongType n.found expected) left
    | .error flaw => flaw

/-- Reads a value that has to be a string. -/
def readTextValue (input : Input) : Except Flaw (String × Input) :=
  match skipBlanks input with
  | [] => .error (.facing .endInValue [])
  | x :: rest =>
    if x = Byte.quote then readText rest else .error (mismatch "a string" x rest)

/-- A number as an integer of 64 bits. -/
def Number.toInt64 (n : Number) (rest : Input) : Except Flaw (Int64 × Input) :=
  match n with
  | .whole i =>
    if Numeral.Range.int64.holds i then .ok (Int64.ofInt i, rest)
    else .error (.after (.wrongValue (.integer i) "i64") rest)
  | .rounded x => .error (.after (.wrongType (.float x) "i64") rest)

/-- Reads a value that has to be an integer of 64 bits. -/
def readInt64Value (input : Input) : Except Flaw (Int64 × Input) :=
  match skipBlanks input with
  | [] => .error (.facing .endInValue [])
  | x :: rest =>
    if x = Byte.minus then convert (readNumber true rest)
    else if Byte.isDigit x then convert (readNumber false (x :: rest))
    else .error (mismatch "i64" x rest)
where
  /-- The integer of a number that was read. -/
  convert : Except Flaw (Number × Input) → Except Flaw (Int64 × Input)
    | .ok (n, left) => n.toInt64 left
    | .error flaw => .error flaw

end Catalogue.Json
