import Catalogue.Http.Router

/-!
# The request log

Every request is logged once it has been answered, with one event. Without a report of faults a
server error is an error and everything else is information. With a report a server error is an
error, and everything else is a warning.
-/

namespace Catalogue.Http

/-- The target of the events. -/
def accessTarget : String := "products::http::response"

/-- Wordings with their numbers, from one on. -/
def numbered (messages : List String) : String :=
  "; ".intercalate (messages.mapIdx fun i m => s!"{i + 1}. {m}")

/-- The level and the message of the event of a response. -/
def accessLevel (status : Nat) (reported : Bool) : Level × String :=
  if reported then
    if 500 ≤ status then (.error, "request failed")
    else if 400 ≤ status then (.warn, "client request error")
    else (.warn, "request degraded")
  else if 500 ≤ status then (.error, "request failed without diagnostics")
  else (.info, "request served")

/-- The event of an answered request. -/
def accessEvent (requestId : String) (request : Request) (response : Response) : Event :=
  let (level, message) := accessLevel response.status response.report.isSome
  let query := [("query", FieldValue.text (request.target.query.getD ""))]
  { level, target := accessTarget, message
    fields :=
      [("status", .number response.status), ("method", .text request.method),
       ("path", .text request.target.path)] ++
      (if response.report.isNone ∧ level = .error then [] else query) ++
      (match response.report with
        | none => []
        | some report =>
          [("source", .text report.source), ("faults", .text (numbered report.messages))]) ++
      [("request_id", .text requestId)] }

/-- Answers a request and logs it. -/
def serveLogged (requestId : String) (request : Request) : Program Response := do
  let response ← serve requestId request
  Program.note (accessEvent requestId request response)
  return response

end Catalogue.Http
