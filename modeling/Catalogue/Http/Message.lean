import Catalogue.Fault
import Catalogue.Http.Target
import Catalogue.Json.Write

/-!
# Requests and responses

A response may carry a report of the faults that went with it. The report is for the log; the client
sees only status, headers and body.
-/

namespace Catalogue.Http

/-- A request as it reaches the service. -/
structure Request where
  method : String
  target : Target
  body : List UInt8 := []

/-- Faults that went with a response: where they were collected, the status they led to, and their
wordings in order. -/
structure ErrorReport where
  source : String
  status : Nat
  messages : List String
  deriving DecidableEq, Repr

/-- The report of an operation's faults. -/
def ErrorReport.ofFaults (source : String) (status : Nat) (faults : FaultReport) : ErrorReport :=
  ⟨source, status, faults.messages⟩

/-- An answer to a request. -/
structure Response where
  status : Nat
  contentType : Option String := none
  allow : Option String := none
  body : String := ""
  report : Option ErrorReport := none
  deriving DecidableEq, Repr

namespace Response

/-- An answer in JSON. -/
def json (status : Nat) (body : String) (report : Option ErrorReport) : Response :=
  { status, contentType := some "application/json", body, report }

/-- An answer in words, for a request that could not be taken apart. -/
def plain (status : Nat) (body : String) : Response :=
  { status, contentType := some "text/plain; charset=utf-8", body }

/-- An answer without a body. -/
def bare (status : Nat) : Response := { status }

/-- The answer to a path that nothing is served under. -/
def noSuchPath : Response := bare 404

/-- The answer to a method that a path does not serve. -/
def noSuchMethod (allowed : List String) : Response :=
  { status := 405, allow := some (",".intercalate allowed) }

end Response

/-- An error in the form that clients see, with the report for the log. -/
structure ApiError where
  status : Nat
  message : String
  report : ErrorReport
  deriving DecidableEq, Repr

namespace ApiError

/-- A request refused for what it says. -/
def refused (message detail : String) : ApiError :=
  let faults : FaultReport := ⟨[], some (.invalidInput detail)⟩
  ⟨400, message, .ofFaults "infra::http::api" 400 faults⟩

/-- A malformed parameter, or one out of range. -/
def invalidParam (name detail : String) : ApiError := refused s!"Invalid {name}" detail

/-- A body that is no payload. -/
def invalidBody (detail : String) : ApiError := refused "Invalid request body" detail

/-- A failed operation. That a product is missing is told to the client only where the request names
one product. -/
def ofFaults (source : String) (faults : FaultReport) (namesProduct : Bool) : ApiError :=
  if namesProduct && faults.isNotFound then
    ⟨404, "Product not found", .ofFaults source 404 faults⟩
  else ⟨500, "Internal server error", .ofFaults source 500 faults⟩

/-- The response that tells an error. -/
def response (error : ApiError) : Response :=
  .json error.status
    (String.ofList (Json.writeObject [("error", Json.writeText error.message)])) (some error.report)

end ApiError

end Catalogue.Http
