import Catalogue.Http.AccessLog
import Catalogue.Operation
import Catalogue.Proofs.Chains

/-!
# What a request asks for

Answering a request falls into three parts: it is read, which may end in a refusal (`Http.asked`);
the operation that it asks for is run; and its outcome is told (`Http.tell`). Only the second part
has to do with the backends. That the router is made of these parts is `Http.serve_eq`. `Http.Asks`
lists the requests that are not refused, route by route, each with the operation that it asks for
(`Http.Asks.asked_eq`, `Http.asks_of_asked`).
-/

namespace Catalogue

namespace Program

variable {α β γ : Type}

theorem bind_pure (program : Program α) : (program >>= fun value => pure value) = program := by
  induction program with
  | done value => rfl
  | ask call next ih => exact congrArg (Program.ask call) (funext ih)
  | log event rest ih => exact congrArg (Program.log event) ih

theorem bind_assoc (program : Program α) (f : α → Program β) (g : β → Program γ) :
    (program >>= f) >>= g = program >>= fun value => f value >>= g := by
  induction program with
  | done value => rfl
  | ask call next ih => exact congrArg (Program.ask call) (funext ih)
  | log event rest ih => exact congrArg (Program.log event) ih

end Program

namespace Http

/-- The text of a path segment. -/
def askedText (segment : String) : Except Response String :=
  match decodeSegment? segment with
  | none => .error (.plain 400 "Invalid URL: Invalid UTF-8 in `id`")
  | some text => .ok text

/-- The identifier that a text names. -/
def askedId (text : String) : Except Response Int64 := (readId text).mapError ApiError.response

/-- The draft that a body holds. -/
def askedDraft (body : List UInt8) : Except Response Draft :=
  (readBody body).mapError ApiError.response

/-- A body that is too large is refused. -/
def checkSize (body : List UInt8) : Except Response Unit :=
  if bodyLimit < body.length then .error tooLarge else .ok ()

/-- The listing that a query asks for. -/
def askedListing (query : Option String) : Except Response Operation :=
  match ListQuery.ofPairs {} (formPairs (query.getD "")) with
  | .error key =>
    .error (.plain 400 s!"Failed to deserialize query string: duplicate field `{key}`")
  | .ok listing =>
    match listing.window with
    | .error e => .error e.response
    | .ok none => .ok .list
    | .ok (some window) => .ok (.page window)

/-- What a request asks for on its route with one of the methods other than `HEAD`. -/
def Route.asked (route : Route) (method : String) (request : Request) : Except Response Operation :=
  match route with
  | .products => if method = "DELETE" then .ok .deleteAll else askedListing request.target.query
  | .newProduct => do
    checkSize request.body
    return .create (← askedDraft request.body)
  | .product segment => do
    let text ← askedText segment
    if method = "PUT" then
      checkSize request.body
      let id ← askedId text
      return .update id (← askedDraft request.body)
    else if method = "DELETE" then return .delete (← askedId text)
    else return .fetch (← askedId text)
  | .health => .ok .ping

/-- **What a request asks for**, or how it is refused. -/
def asked (request : Request) : Except Response Operation :=
  match Route.of? request.target.path with
  | none => .error .noSuchPath
  | some route =>
    if request.method ∉ route.methods then .error (.noSuchMethod route.methods)
    else route.asked (if request.method = "HEAD" then "GET" else request.method) request

/-- How the outcome of an operation is told. -/
def tell : (operation : Operation) → Outcome operation.Value → Response
  | .fetch _, outcome => answer 200 true (fun text => text) outcome
  | .list, outcome => answer 200 false renderList outcome
  | .page _, outcome => answer 200 false renderList outcome
  | .create _, outcome => answer 201 false renderId outcome
  | .update _ _, outcome => answer 200 true Product.encode outcome
  | .delete _, outcome => answer 200 true Product.encode outcome
  | .deleteAll, outcome => answer 200 false renderCount outcome
  | .ping, .ok _ => .bare 204
  | .ping, .error failure =>
    { status := 503, report := some (.ofFaults healthSource 503 failure.report) }

/-- The answer to a request for the head alone has no body. -/
def Request.trim (request : Request) (response : Response) : Response :=
  if request.method = "HEAD" then { response with body := "" } else response

/-- Goes on with what was read unless it is refused. -/
def unlessRefused {α : Type} : Except Response α → (α → Program Response) → Program Response
  | .error response, _ => pure response
  | .ok value, next => next value

/-- Runs an operation and tells its outcome. -/
def perform (requestId : String) (operation : Operation) : Program Response :=
  operation.program requestId >>= fun outcome => pure (tell operation outcome)

/-! ### The router -/

variable {α β : Type} (requestId : String)

theorem unlessRefused_bind (x : Except Response α) (f : α → Except Response β)
    (next : β → Program Response) :
    unlessRefused (x >>= f) next = unlessRefused x fun value => unlessRefused (f value) next := by
  cases x <;> rfl

theorem withSegment_eq (segment : String) (next : String → Program Response) :
    withSegment segment next = unlessRefused (askedText segment) next := by
  unfold withSegment askedText
  cases decodeSegment? segment <;> rfl

theorem withId_eq (text : String) (next : Int64 → Program Response) :
    withId text next = unlessRefused (askedId text) next := by
  unfold withId askedId
  cases readId text <;> rfl

theorem withDraft_eq (body : List UInt8) (next : Draft → Program Response) :
    withDraft body next = unlessRefused (askedDraft body) next := by
  unfold withDraft askedDraft
  cases readBody body <;> rfl

theorem withBody_eq (body : List UInt8) (next : Program Response) :
    withBody body next = unlessRefused (checkSize body) fun _ => next := by
  unfold withBody checkSize
  split <;> rfl

theorem listProducts_eq (query : Option String) :
    listProducts query = unlessRefused (askedListing query) (perform requestId) := by
  unfold listProducts askedListing
  cases ListQuery.ofPairs {} (formPairs (query.getD "")) with
  | error key => rfl
  | ok listing =>
    dsimp only
    rcases listing.window with e | none | window
    · rfl
    · rfl
    · rfl

theorem checkHealth_eq : checkHealth = perform requestId .ping := by
  refine congrArg (Program.ask (.store .ping)) (funext fun answer => ?_)
  cases answer <;> rfl

theorem serveMethod_eq (route : Route) (method : String) (request : Request) :
    serveMethod requestId route method request =
      unlessRefused (route.asked method request) (perform requestId) := by
  cases route with
  | products =>
    dsimp only [serveMethod, Route.asked]
    split_ifs
    · rfl
    · exact listProducts_eq requestId request.target.query
  | newProduct =>
    dsimp only [serveMethod, Route.asked, createProduct]
    simp only [withBody_eq, withDraft_eq, unlessRefused_bind]
    rfl
  | product segment =>
    dsimp only [serveMethod, Route.asked, updateProduct, deleteProduct, getProduct]
    simp only [withSegment_eq, withBody_eq, withId_eq, withDraft_eq, unlessRefused_bind]
    split_ifs
    · simp only [unlessRefused_bind]
      rfl
    · simp only [unlessRefused_bind]
      rfl
    · simp only [unlessRefused_bind]
      rfl
  | health => exact checkHealth_eq requestId

/-- A response without a body is left as it is. -/
theorem trim_eq_self (request : Request) {response : Response} (h : response.body = "") :
    request.trim response = response := by
  unfold Request.trim
  split
  · rw [← h]
  · rfl

/-- **The router reads, runs and tells.** -/
theorem serve_eq (request : Request) :
    serve requestId request =
      unlessRefused (asked request) (perform requestId) >>= fun response =>
        pure (request.trim response) := by
  unfold serve asked
  cases Route.of? request.target.path with
  | none => exact congrArg Program.done (trim_eq_self request rfl).symm
  | some route =>
    dsimp only
    by_cases hmethod : request.method ∉ route.methods
    · rw [if_pos hmethod, if_pos hmethod]
      exact congrArg Program.done (trim_eq_self request rfl).symm
    · rw [if_neg hmethod, if_neg hmethod]
      unfold Request.trim
      split_ifs
      · rw [serveMethod_eq]
      · rw [serveMethod_eq]
        exact (Program.bind_pure _).symm

theorem serveLogged_eq (request : Request) :
    serveLogged requestId request =
      unlessRefused (asked request) (perform requestId) >>= fun response =>
        Program.note (accessEvent requestId request (request.trim response)) >>= fun _ =>
          pure (request.trim response) := by
  unfold serveLogged
  rw [serve_eq, Program.bind_assoc]
  rfl

/-! ### The requests that are not refused -/

/-- Whether a request reads only. A request for the head alone is one for the whole, so far as the
backends are concerned. -/
def Request.Reads (request : Request) : Prop := request.method = "GET" ∨ request.method = "HEAD"

/-- **The requests that are not refused**, each with the operation that it asks for. -/
inductive Asks (request : Request) : Operation → Prop
  | list {listing : ListQuery} :
      Route.of? request.target.path = some .products → request.Reads →
      ListQuery.ofPairs {} (formPairs (request.target.query.getD "")) = .ok listing →
      listing.window = .ok none → Asks request .list
  | page {listing : ListQuery} {window : Window} :
      Route.of? request.target.path = some .products → request.Reads →
      ListQuery.ofPairs {} (formPairs (request.target.query.getD "")) = .ok listing →
      listing.window = .ok (some window) → Asks request (.page window)
  | deleteAll :
      Route.of? request.target.path = some .products → request.method = "DELETE" →
      Asks request .deleteAll
  | create {draft : Draft} :
      Route.of? request.target.path = some .newProduct → request.method = "POST" →
      request.body.length ≤ bodyLimit → readBody request.body = .ok draft →
      Asks request (.create draft)
  | fetch {segment text : String} {id : Int64} :
      Route.of? request.target.path = some (.product segment) → request.Reads →
      decodeSegment? segment = some text → readId text = .ok id → Asks request (.fetch id)
  | update {segment text : String} {id : Int64} {draft : Draft} :
      Route.of? request.target.path = some (.product segment) → request.method = "PUT" →
      decodeSegment? segment = some text → request.body.length ≤ bodyLimit →
      readId text = .ok id → readBody request.body = .ok draft → Asks request (.update id draft)
  | delete {segment text : String} {id : Int64} :
      Route.of? request.target.path = some (.product segment) → request.method = "DELETE" →
      decodeSegment? segment = some text → readId text = .ok id → Asks request (.delete id)
  | ping :
      Route.of? request.target.path = some .health → request.Reads → Asks request .ping

variable {request : Request} {operation : Operation}

theorem askedText_eq_ok_iff {segment text : String} :
    askedText segment = .ok text ↔ decodeSegment? segment = some text := by
  unfold askedText
  cases decodeSegment? segment <;> simp

theorem askedId_eq_ok_iff {text : String} {id : Int64} :
    askedId text = .ok id ↔ readId text = .ok id := by
  unfold askedId
  cases readId text <;> simp [Except.mapError]

theorem askedDraft_eq_ok_iff {body : List UInt8} {draft : Draft} :
    askedDraft body = .ok draft ↔ readBody body = .ok draft := by
  unfold askedDraft
  cases readBody body <;> simp [Except.mapError]

theorem checkSize_eq_ok_iff {body : List UInt8} :
    checkSize body = .ok () ↔ body.length ≤ bodyLimit := by
  unfold checkSize
  split_ifs with h
  · exact iff_of_false nofun (Nat.not_le.2 h)
  · exact iff_of_true rfl (Nat.not_lt.1 h)

theorem askedListing_eq_ok_iff {query : Option String} :
    askedListing query = .ok operation ↔
      ∃ listing, ListQuery.ofPairs {} (formPairs (query.getD "")) = .ok listing ∧
        ((listing.window = .ok none ∧ operation = .list) ∨
          ∃ window, listing.window = .ok (some window) ∧ operation = .page window) := by
  unfold askedListing
  cases ListQuery.ofPairs {} (formPairs (query.getD "")) with
  | error key => simp
  | ok listing =>
    dsimp only
    rcases hw : listing.window with e | none | window
    · simp [hw]
    · simp [hw, eq_comm]
    · simp [hw, eq_comm]

theorem Request.Reads.method_eq (h : request.Reads) :
    (if request.method = "HEAD" then "GET" else request.method) = "GET" := by
  rcases h with h | h
  · rw [h]
    rfl
  · rw [if_pos h]

theorem asked_of_method {route : Route} {method : String}
    (hroute : Route.of? request.target.path = some route) (hrequest : request.method = method)
    (hmethod : method ∈ route.methods) :
    asked request = route.asked (if method = "HEAD" then "GET" else method) request := by
  subst hrequest
  unfold asked
  rw [hroute]
  exact if_neg (not_not_intro hmethod)

theorem asked_of_reads {route : Route} (hroute : Route.of? request.target.path = some route)
    (hreads : request.Reads) (hget : "GET" ∈ route.methods) (hhead : "HEAD" ∈ route.methods) :
    asked request = route.asked "GET" request := by
  rcases hreads with h | h
  · exact asked_of_method hroute h hget
  · exact asked_of_method hroute h hhead

theorem Asks.asked_eq (h : Asks request operation) : asked request = .ok operation := by
  cases h with
  | list hroute hreads hpairs hwindow =>
    rw [asked_of_reads hroute hreads (by decide) (by decide)]
    exact askedListing_eq_ok_iff.2 ⟨_, hpairs, Or.inl ⟨hwindow, rfl⟩⟩
  | page hroute hreads hpairs hwindow =>
    rw [asked_of_reads hroute hreads (by decide) (by decide)]
    exact askedListing_eq_ok_iff.2 ⟨_, hpairs, Or.inr ⟨_, hwindow, rfl⟩⟩
  | deleteAll hroute hmethod =>
    rw [asked_of_method hroute hmethod (by decide)]
    rfl
  | create hroute hmethod hsize hbody =>
    rw [asked_of_method hroute hmethod (by decide)]
    refine bind_eq_ok_iff.2 ⟨(), checkSize_eq_ok_iff.2 hsize, ?_⟩
    exact bind_eq_ok_iff.2 ⟨_, askedDraft_eq_ok_iff.2 hbody, rfl⟩
  | fetch hroute hreads htext hid =>
    rw [asked_of_reads hroute hreads (by simp [Route.methods]) (by simp [Route.methods])]
    refine bind_eq_ok_iff.2 ⟨_, askedText_eq_ok_iff.2 htext, ?_⟩
    exact bind_eq_ok_iff.2 ⟨_, askedId_eq_ok_iff.2 hid, rfl⟩
  | update hroute hmethod htext hsize hid hbody =>
    rw [asked_of_method hroute hmethod (by simp [Route.methods])]
    refine bind_eq_ok_iff.2 ⟨_, askedText_eq_ok_iff.2 htext, ?_⟩
    refine bind_eq_ok_iff.2 ⟨(), checkSize_eq_ok_iff.2 hsize, ?_⟩
    refine bind_eq_ok_iff.2 ⟨_, askedId_eq_ok_iff.2 hid, ?_⟩
    exact bind_eq_ok_iff.2 ⟨_, askedDraft_eq_ok_iff.2 hbody, rfl⟩
  | delete hroute hmethod htext hid =>
    rw [asked_of_method hroute hmethod (by simp [Route.methods])]
    refine bind_eq_ok_iff.2 ⟨_, askedText_eq_ok_iff.2 htext, ?_⟩
    exact bind_eq_ok_iff.2 ⟨_, askedId_eq_ok_iff.2 hid, rfl⟩
  | ping hroute hreads =>
    rw [asked_of_reads hroute hreads (by decide) (by decide)]
    rfl

/-- A request that its route does not refuse is one of those listed. -/
theorem asks_of_route {route : Route} (hroute : Route.of? request.target.path = some route)
    (hmethod : request.method ∈ route.methods)
    (h : route.asked (if request.method = "HEAD" then "GET" else request.method) request =
      .ok operation) : Asks request operation := by
  cases route with
  | products =>
    have hcases : request.Reads ∨ request.method = "DELETE" := by
      simpa [Route.methods, Request.Reads, or_assoc] using hmethod
    rcases hcases with hreads | hdelete
    · rw [hreads.method_eq] at h
      obtain ⟨listing, hpairs, hlisting⟩ := askedListing_eq_ok_iff.1 h
      rcases hlisting with ⟨hwindow, rfl⟩ | ⟨window, hwindow, rfl⟩
      · exact .list hroute hreads hpairs hwindow
      · exact .page hroute hreads hpairs hwindow
    · rw [hdelete] at h
      cases h
      exact .deleteAll hroute hdelete
  | newProduct =>
    have hpost : request.method = "POST" := by
      simpa [Route.methods] using hmethod
    rw [hpost] at h
    obtain ⟨_, hsize, h⟩ := bind_eq_ok_iff.1 h
    obtain ⟨draft, hbody, h⟩ := bind_eq_ok_iff.1 h
    cases h
    exact .create hroute hpost (checkSize_eq_ok_iff.1 hsize) (askedDraft_eq_ok_iff.1 hbody)
  | product segment =>
    have hcases : request.Reads ∨ request.method = "PUT" ∨ request.method = "DELETE" := by
      simpa [Route.methods, Request.Reads, or_assoc] using hmethod
    obtain ⟨text, htext, h⟩ := bind_eq_ok_iff.1 h
    have htext := askedText_eq_ok_iff.1 htext
    rcases hcases with hreads | hput | hdelete
    · rw [hreads.method_eq] at h
      obtain ⟨id, hid, h⟩ := bind_eq_ok_iff.1 h
      cases h
      exact .fetch hroute hreads htext (askedId_eq_ok_iff.1 hid)
    · rw [hput] at h
      obtain ⟨_, hsize, h⟩ := bind_eq_ok_iff.1 h
      obtain ⟨id, hid, h⟩ := bind_eq_ok_iff.1 h
      obtain ⟨draft, hbody, h⟩ := bind_eq_ok_iff.1 h
      cases h
      exact .update hroute hput htext (checkSize_eq_ok_iff.1 hsize) (askedId_eq_ok_iff.1 hid)
        (askedDraft_eq_ok_iff.1 hbody)
    · rw [hdelete] at h
      obtain ⟨id, hid, h⟩ := bind_eq_ok_iff.1 h
      cases h
      exact .delete hroute hdelete htext (askedId_eq_ok_iff.1 hid)
  | health =>
    have hreads : request.Reads := by
      simpa [Route.methods, Request.Reads] using hmethod
    cases h
    exact .ping hroute hreads

theorem asks_of_asked (h : asked request = .ok operation) : Asks request operation := by
  unfold asked at h
  split at h
  · cases h
  · rename_i route hroute
    split at h
    · cases h
    · rename_i hmethod
      exact asks_of_route hroute (not_not.1 hmethod) h

end Http

end Catalogue
