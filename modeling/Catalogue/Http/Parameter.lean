import Catalogue.Http.Message
import Catalogue.Product.Decode
import Catalogue.Window

/-!
# What requests say

Identifiers, page windows and payloads are read from requests. Each refusal names the part of the
request that it is about.
-/

namespace Catalogue.Http

/-- Reads an integer parameter. -/
def readParam (name text : String) : Except ApiError Int64 :=
  match Numeral.read .int64 text.toList with
  | .ok n => .ok (Int64.ofInt n)
  | .error flaw => .error (.invalidParam name s!"failed to parse {name}: {flaw.message}")

/-- Reads the identifier of a product, which is positive. -/
def readId (text : String) : Except ApiError Int64 :=
  match readParam "product id" text with
  | .error e => .error e
  | .ok id =>
    if id.toInt < 1 then
      .error (.invalidParam "product id"
        s!"invalid product id: has value {id.toInt}, must be ge 1")
    else .ok id

/-- The parameters of a listing. -/
structure ListQuery where
  limit : Option String := none
  offset : Option String := none
  deriving DecidableEq, Repr

/-- Collects the parameters of a listing; other parameters are ignored, and one that comes twice is
a fault. -/
def ListQuery.ofPairs (query : ListQuery) : List (String × String) → Except String ListQuery
  | [] => .ok query
  | (key, value) :: rest =>
    if key = "limit" then
      if query.limit.isSome then .error key
      else ListQuery.ofPairs { query with limit := some value } rest
    else if key = "offset" then
      if query.offset.isSome then .error key
      else ListQuery.ofPairs { query with offset := some value } rest
    else ListQuery.ofPairs query rest

/-- The window that a listing asks for. There is one only if both parameters say something. -/
def ListQuery.window (query : ListQuery) : Except ApiError (Option Window) :=
  match query.limit.filter (· ≠ ""), query.offset.filter (· ≠ "") with
  | some limit, some offset =>
    match readParam "limit" limit with
    | .error e => .error e
    | .ok limit =>
      match readParam "offset" offset with
      | .error e => .error e
      | .ok offset =>
        match Window.of limit offset with
        | .ok window => .ok (some window)
        | .error (.limit v) => .error (.invalidParam "limit" (WindowFlaw.limit v).message)
        | .error (.offset v) => .error (.invalidParam "offset" (WindowFlaw.offset v).message)
  | _, _ => .ok none

/-- Reads the payload of a request. -/
def readBody (body : List UInt8) : Except ApiError Draft :=
  match Draft.decode body with
  | .error flaw => .error (.invalidBody s!"failed to decode payload: {flaw.message body}")
  | .ok draft =>
    if draft.isComplete then .ok draft
    else .error (.invalidBody s!"failed to decode payload: {Draft.incompleteMessage}")

end Catalogue.Http
