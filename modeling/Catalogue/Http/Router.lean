import Catalogue.Http.Parameter
import Catalogue.Service

/-!
# The HTTP interface

A request is routed by its path, then by its method. The path parameter is taken apart first, then
the query or the body, then their contents are checked, and only then is the service asked.
-/

namespace Catalogue.Http

/-- Where the handlers' reports come from. -/
def handlerSource : String := "infra::http::api::handlers"

/-- Where the reports of the health check come from. -/
def healthSource : String := "infra::http::health"

/-- The most bytes that a payload may have. -/
def bodyLimit : Nat := 2097152

/-- The answer to a payload with too many bytes. -/
def tooLarge : Response :=
  .plain 413 "Failed to buffer the request body: length limit exceeded"

/-- The paths that are served. -/
inductive Route where
  | products
  | newProduct
  | product (segment : String)
  | health
  deriving DecidableEq, Repr

/-- The route of a path. A product is named by one segment that is not empty. -/
def Route.of? (path : String) : Option Route :=
  if path = "/products" then some .products
  else if path = "/product" then some .newProduct
  else if path = "/health" then some .health
  else
    let front := "/product/".toList
    let segment := path.toList.drop front.length
    if path.toList.take front.length = front ∧ segment ≠ [] ∧ '/' ∉ segment then
      some (.product (String.ofList segment))
    else none

/-- The answer to a successful operation, with a report of the faults in spite of which it
succeeded. -/
def respond {α : Type} (status : Nat) (render : α → String) (served : Served α) : Response :=
  .json status (render served.value) (served.report?.map (.ofFaults handlerSource status))

/-- The answer to an operation. -/
def answer {α : Type} (status : Nat) (namesProduct : Bool) (render : α → String) :
    Outcome α → Response
  | .ok served => respond status render served
  | .error failure => (ApiError.ofFaults handlerSource failure.report namesProduct).response

/-- A list of products. -/
def renderList (products : List Product) : String :=
  String.ofList (Json.writeList (products.map Product.encodeChars))

/-- The identifier of a created product. -/
def renderId (id : Int64) : String :=
  String.ofList (Json.writeObject [("id", Numeral.ofInt id.toInt)])

/-- The number of deleted products. -/
def renderCount (count : Nat) : String :=
  String.ofList (Json.writeObject [("deletedRows", Numeral.ofNat count)])

/-- Lists all products, or those of a window. -/
def listProducts (query : Option String) : Program Response :=
  match ListQuery.ofPairs {} (formPairs (query.getD "")) with
  | .error key =>
    return .plain 400 s!"Failed to deserialize query string: duplicate field `{key}`"
  | .ok listing =>
    match listing.window with
    | .error e => return e.response
    | .ok none => return answer 200 false renderList (← Service.list)
    | .ok (some window) => return answer 200 false renderList (← Service.page window)

/-- Deletes all products. -/
def deleteProducts (requestId : String) : Program Response :=
  return answer 200 false renderCount (← Service.deleteAll requestId)

/-- Goes on with a body unless it is too large. -/
def withBody (body : List UInt8) (next : Program Response) : Program Response :=
  if bodyLimit < body.length then return tooLarge else next

/-- Goes on with the identifier that a path segment names. -/
def withId (segment : String) (next : Int64 → Program Response) : Program Response :=
  match readId segment with
  | .error e => return e.response
  | .ok id => next id

/-- Goes on with the draft that a body holds. -/
def withDraft (body : List UInt8) (next : Draft → Program Response) : Program Response :=
  match readBody body with
  | .error e => return e.response
  | .ok draft => next draft

/-- Goes on with a path segment if it is text. -/
def withSegment (segment : String) (next : String → Program Response) : Program Response :=
  match decodeSegment? segment with
  | none => return .plain 400 "Invalid URL: Invalid UTF-8 in `id`"
  | some text => next text

/-- Creates a product. -/
def createProduct (requestId : String) (body : List UInt8) : Program Response :=
  withBody body (withDraft body fun draft =>
    return answer 201 false renderId (← Service.create requestId draft))

/-- Gives a product, whose text needs no rendering any more. -/
def getProduct (requestId : String) (segment : String) : Program Response :=
  withSegment segment fun text => withId text fun id =>
    return answer 200 true (fun text => text) (← Service.fetch requestId id)

/-- Replaces the payload of a product. -/
def updateProduct (segment : String) (body : List UInt8) : Program Response :=
  withSegment segment fun text => withBody body (withId text fun id => withDraft body fun draft =>
    return answer 200 true Product.encode (← Service.update id draft))

/-- Deletes a product. -/
def deleteProduct (segment : String) : Program Response :=
  withSegment segment fun text => withId text fun id =>
    return answer 200 true Product.encode (← Service.delete id)

/-- Tells whether the store answers. -/
def checkHealth : Program Response := do
  match ← Service.ping with
  | .ok () => return .bare 204
  | .error failure =>
    return { status := 503, report := some (.ofFaults healthSource 503 failure.report) }

/-- The methods of a route. -/
def Route.methods : Route → List String
  | .products => ["GET", "HEAD", "DELETE"]
  | .newProduct => ["POST"]
  | .product _ => ["GET", "HEAD", "PUT", "DELETE"]
  | .health => ["GET", "HEAD"]

/-- Answers a request with one of the methods of its route other than `HEAD`. -/
def serveMethod (requestId : String) (route : Route) (method : String) (request : Request) :
    Program Response :=
  match route with
  | .products =>
    if method = "DELETE" then deleteProducts requestId else listProducts request.target.query
  | .newProduct => createProduct requestId request.body
  | .product segment =>
    if method = "PUT" then updateProduct segment request.body
    else if method = "DELETE" then deleteProduct segment
    else getProduct requestId segment
  | .health => checkHealth

/-- Answers a request. A request for the head alone is answered without the body. This is the course
of requests whose call context can be made (`ApiState.callContext?`); others end before their first
call, without a response. -/
def serve (requestId : String) (request : Request) : Program Response :=
  match Route.of? request.target.path with
  | none => return .noSuchPath
  | some route =>
    if request.method ∉ route.methods then return .noSuchMethod route.methods
    else if request.method = "HEAD" then do
      let response ← serveMethod requestId route "GET" request
      return { response with body := "" }
    else serveMethod requestId route request.method request

end Catalogue.Http
