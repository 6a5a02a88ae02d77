import Catalogue.Proofs.Parameters
import Catalogue.Proofs.Payload
import Catalogue.Proofs.Transparency
import Catalogue.Proofs.Verdict

/-!
# How requests are refused

A request about products is refused in one of two ways. Either it is refused in the form that
clients know (`Http.Response.Uniform`): with the part that is invalid and a report that says why, or
with that the product is missing. Or the request cannot be taken apart (`Http.Request.Garbled`), and
the refusal is a plain text without a report. The line between the two is drawn where the parts of a
request are taken out of it: what is wrong with the contents of a part is told uniformly
(`Http.refusal_cases`), and what is wrong with the part itself never is
(`Http.Request.Garbled.asked_eq`).
-/

namespace Catalogue.Http

/-- The methods that are about products. -/
def Route.productMethods : Route → List String
  | .products => ["GET", "DELETE"]
  | .newProduct => ["POST"]
  | .product _ => ["GET", "PUT", "DELETE"]
  | .health => []

/-- What may be told to be invalid. -/
def subjects : List String := ["product id", "limit", "offset", "request body"]

/-- The client is told which part of the request is invalid, and a report with a single message goes
along that says why. -/
structure Response.Invalid (response : Response) : Prop where
  status : response.status = 400
  body : ∃ subject ∈ subjects, response.body = "\x7b\"error\":\"Invalid " ++ subject ++ "\"\x7d"
  report : ∃ report detail, response.report = some report ∧
    report.messages = ["invalid input: " ++ detail]

/-- **Refusals in the form that clients know**: the product is missing, or a part of the request is
invalid. -/
inductive Response.Uniform (response : Response) : Prop
  | missing : response.status = 404 →
      response.body = "\x7b\"error\":\"Product not found\"\x7d" → response.Uniform
  | invalid : response.Invalid → response.Uniform

/-- The client is refused in plain text, and no report goes along. -/
def Response.Plain (response : Response) : Prop :=
  ∃ status text, (status = 400 ∨ status = 413) ∧ response = .plain status text

/-- How often a query gives a parameter. -/
def Target.times (target : Target) (name : String) : Nat :=
  ((formPairs (target.query.getD "")).map Prod.fst).count name

/-- **Requests that cannot be taken apart**: the path segment is no text, a parameter of the listing
is given twice, or the body is too long. -/
inductive Request.Garbled (request : Request) : Route → Prop
  | segment {segment : String} : decodeSegment? segment = none → Garbled request (.product segment)
  | query {name : String} : request.method = "GET" → name = "limit" ∨ name = "offset" →
      2 ≤ request.target.times name → Garbled request .products
  | body : bodyLimit < request.body.length → Garbled request .newProduct
  | replacement {segment : String} : request.method = "PUT" → bodyLimit < request.body.length →
      Garbled request (.product segment)

/-! ### Uniform refusals -/

variable {request : Request} {route : Route} {refusal : Response} {operation : Operation}

theorem invalid_refused {subject message detail : String} (h : subject ∈ subjects)
    (hmessage : message = "Invalid " ++ subject) :
    (ApiError.refused message detail).response.Invalid := by
  subst hmessage
  have hbody :
      String.ofList (Json.writeObject [("error", Json.writeText ("Invalid " ++ subject))]) =
        "\x7b\"error\":\"Invalid " ++ subject ++ "\"\x7d" := by
    revert subject
    decide
  exact ⟨rfl, ⟨subject, h, hbody⟩, _, detail, rfl, rfl⟩

theorem Response.Uniform.status_bounds (h : refusal.Uniform) :
    400 ≤ refusal.status ∧ refusal.status < 500 := by
  cases h with
  | missing hstatus => omega
  | invalid hinvalid =>
    have hstatus := hinvalid.status
    omega

theorem plain_undecodable : (Response.plain 400 "Invalid URL: Invalid UTF-8 in `id`").Plain :=
  ⟨400, _, Or.inl rfl, rfl⟩

theorem plain_tooLarge : tooLarge.Plain := ⟨413, _, Or.inr rfl, rfl⟩

theorem Response.Plain.status_bounds (h : refusal.Plain) :
    400 ≤ refusal.status ∧ refusal.status < 500 := by
  obtain ⟨status, text, hstatus, rfl⟩ := h
  show 400 ≤ status ∧ status < 500
  omega

/-- A plain text is no refusal in the form that clients know. -/
theorem Response.Plain.not_uniform (h : refusal.Plain) : ¬ refusal.Uniform := by
  obtain ⟨status, text, hstatus, rfl⟩ := h
  intro huniform
  cases huniform with
  | missing h404 =>
    have h404 : status = 404 := h404
    omega
  | invalid hinvalid =>
    obtain ⟨report, detail, hreport, -⟩ := hinvalid.report
    cases hreport

theorem invalid_of_askedId {text : String} (h : askedId text = .error refusal) :
    refusal.Invalid := by
  unfold askedId at h
  cases hread : readId text with
  | ok id =>
    rw [hread] at h
    cases h
  | error e =>
    rw [hread] at h
    cases h
    obtain ⟨detail, rfl⟩ := exists_of_readId_error hread
    exact invalid_refused (by decide) rfl

theorem invalid_of_askedDraft {body : List UInt8} (h : askedDraft body = .error refusal) :
    refusal.Invalid := by
  unfold askedDraft at h
  cases hread : readBody body with
  | ok draft =>
    rw [hread] at h
    cases h
  | error e =>
    rw [hread] at h
    cases h
    obtain ⟨detail, rfl⟩ := exists_invalidBody hread
    have hmessage : "Invalid request body" = "Invalid " ++ "request body" := by decide
    exact invalid_refused (by decide) hmessage

/-- A listing whose parameters were taken out of the query is refused for one of them. -/
theorem invalid_of_window {listing : ListQuery} {e : ApiError} (h : listing.window = .error e) :
    e.response.Invalid := by
  obtain ⟨came, hcame⟩ := listing.exists_comesTo
  have htells := hcame.tells
  rw [h] at htells
  cases htells with
  | refused name detail =>
    have hname : name = "limit" ∨ name = "offset" := by
      cases hcame with
      | illegibleLimit | smallLimit => exact Or.inl rfl
      | illegibleOffset | negativeOffset => exact Or.inr rfl
    rcases hname with rfl | rfl
    · exact invalid_refused (by decide) rfl
    · exact invalid_refused (by decide) rfl

/-- That a product is missing is told uniformly. -/
theorem uniform_of_missing {outcome : Outcome operation.Value}
    (h : (tell operation outcome).status = 404) : (tell operation outcome).Uniform := by
  have hmissing : ∀ {α : Type} {render : α → String} {namesProduct : Bool} {status : Nat}
      {outcome : Outcome α}, status ≠ 404 →
      (answer status namesProduct render outcome).status = 404 →
      (answer status namesProduct render outcome).Uniform := by
    intro α render namesProduct status outcome hstatus h404
    rcases outcome with failure | served
    · unfold answer ApiError.ofFaults at *
      dsimp only at *
      split_ifs at *
      · exact .missing rfl missing_body
      · cases h404
    · exact absurd h404 hstatus
  cases operation with
  | ping => rcases outcome with failure | served <;> cases h
  | fetch id | list | page window | create draft | update id draft | delete id | deleteAll =>
    exact hmissing (by decide) h

/-! ### Requests that cannot be taken apart -/

/-- The parameters of a listing are taken out of its query if none of them is given twice. -/
theorem ListQuery.exists_ofPairs_ok_iff (query : ListQuery) (pairs : List (String × String)) :
    (∃ listing, ListQuery.ofPairs query pairs = .ok listing) ↔
      query.limit.toList.length + (pairs.map Prod.fst).count "limit" ≤ 1 ∧
        query.offset.toList.length + (pairs.map Prod.fst).count "offset" ≤ 1 := by
  -- what was read so far counts like a pair in front
  induction pairs generalizing query with
  | nil =>
    obtain ⟨limit, offset⟩ := query
    refine iff_of_true ⟨_, rfl⟩ ?_
    cases limit <;> cases offset <;> simp
  | cons pair rest ih =>
    obtain ⟨key, value⟩ := pair
    obtain ⟨limit, offset⟩ := query
    simp only [List.map_cons, ListQuery.ofPairs]
    by_cases hlimit : key = "limit"
    · subst hlimit
      rw [if_pos rfl, List.count_cons_self, List.count_cons_of_ne (by decide)]
      cases limit with
      | some text =>
        refine iff_of_false nofun ?_
        rintro ⟨htwice, -⟩
        simp at htwice
      | none =>
        simp only [Option.isSome_none, Bool.false_eq_true, if_false]
        rw [ih]
        simp [Nat.add_comm]
    · rw [if_neg hlimit, List.count_cons_of_ne hlimit]
      by_cases hoffset : key = "offset"
      · subst hoffset
        rw [if_pos rfl, List.count_cons_self]
        cases offset with
        | some text =>
          refine iff_of_false nofun ?_
          rintro ⟨-, htwice⟩
          simp at htwice
        | none =>
          simp only [Option.isSome_none, Bool.false_eq_true, if_false]
          rw [ih]
          simp [Nat.add_comm]
      · rw [if_neg hoffset, List.count_cons_of_ne hoffset]
        exact ih _

/-- A query that gives a parameter of the listing twice is refused before the parameters are looked
at. -/
theorem askedListing_of_twice {target : Target} {name : String}
    (hname : name = "limit" ∨ name = "offset") (htwice : 2 ≤ target.times name) :
    ∃ refusal, askedListing target.query = .error refusal ∧ refusal.Plain := by
  unfold askedListing
  cases hpairs : ListQuery.ofPairs {} (formPairs (target.query.getD "")) with
  | error key => exact ⟨_, rfl, 400, _, Or.inl rfl, rfl⟩
  | ok listing =>
    obtain ⟨hlimit, hoffset⟩ := (ListQuery.exists_ofPairs_ok_iff {} _).1 ⟨listing, hpairs⟩
    have hlimit : target.times "limit" ≤ 1 := by simpa [Target.times] using hlimit
    have hoffset : target.times "offset" ≤ 1 := by simpa [Target.times] using hoffset
    rcases hname with rfl | rfl
    · omega
    · omega

/-- A listing is refused for an invalid parameter unless one is given twice. -/
theorem askedListing_cases {target : Target} (h : askedListing target.query = .error refusal) :
    refusal.Invalid ∨ ∃ name, (name = "limit" ∨ name = "offset") ∧ 2 ≤ target.times name := by
  unfold askedListing at h
  cases hpairs : ListQuery.ofPairs {} (formPairs (target.query.getD "")) with
  | error key =>
    right
    by_contra honce
    have hle : ∀ name, name = "limit" ∨ name = "offset" → target.times name ≤ 1 := by
      intro name hname
      by_contra htwice
      exact honce ⟨name, hname, by omega⟩
    have hok := (ListQuery.exists_ofPairs_ok_iff {} (formPairs (target.query.getD ""))).2
      ⟨by simpa [Target.times] using hle "limit" (Or.inl rfl),
        by simpa [Target.times] using hle "offset" (Or.inr rfl)⟩
    obtain ⟨listing, hlisting⟩ := hok
    rw [hpairs] at hlisting
    cases hlisting
  | ok listing =>
    rw [hpairs] at h
    dsimp only at h
    left
    rcases hwindow : listing.window with e | none | window
    · rw [hwindow] at h
      cases h
      exact invalid_of_window hwindow
    · rw [hwindow] at h
      cases h
    · rw [hwindow] at h
      cases h

/-! ### The two ways to refuse -/

theorem mem_methods_of_productMethods {method : String} (h : method ∈ route.productMethods) :
    method ∈ route.methods ∧ method ≠ "HEAD" := by
  cases route with
  | products =>
    rcases List.mem_pair.1 h with rfl | rfl <;> decide
  | newProduct =>
    rw [List.mem_singleton.1 h]
    decide
  | product segment =>
    simp only [Route.productMethods, List.mem_cons, List.not_mem_nil, or_false] at h
    rcases h with rfl | rfl | rfl <;> simp [Route.methods]
  | health => cases h

theorem asked_of_productMethods (hroute : Route.of? request.target.path = some route)
    (hmethod : request.method ∈ route.productMethods) :
    asked request = route.asked request.method request := by
  obtain ⟨hmem, hhead⟩ := mem_methods_of_productMethods hmethod
  rw [asked_of_method hroute rfl hmem, if_neg hhead]

theorem askedText_eq_error_iff {segment : String} :
    askedText segment = .error refusal ↔ decodeSegment? segment = none ∧
      refusal = .plain 400 "Invalid URL: Invalid UTF-8 in `id`" := by
  unfold askedText
  cases decodeSegment? segment <;> simp [eq_comm]

theorem checkSize_eq_error_iff {body : List UInt8} :
    checkSize body = .error refusal ↔ bodyLimit < body.length ∧ refusal = tooLarge := by
  unfold checkSize
  split_ifs with h <;> simp [h, eq_comm]

/-- A request that cannot be taken apart is refused in plain text. -/
theorem Request.Garbled.asked_eq (h : request.Garbled route)
    (hroute : Route.of? request.target.path = some route)
    (hmethod : request.method ∈ route.productMethods) :
    ∃ refusal, asked request = .error refusal ∧ refusal.Plain := by
  rw [asked_of_productMethods hroute hmethod]
  cases h with
  | segment hdecode =>
    refine ⟨_, bind_eq_error_iff.2 (Or.inl ?_), plain_undecodable⟩
    exact askedText_eq_error_iff.2 ⟨hdecode, rfl⟩
  | query hget hname htwice =>
    rw [hget]
    exact askedListing_of_twice hname htwice
  | body hsize =>
    refine ⟨_, bind_eq_error_iff.2 (Or.inl ?_), plain_tooLarge⟩
    exact checkSize_eq_error_iff.2 ⟨hsize, rfl⟩
  | @replacement segment hput hsize =>
    rw [hput]
    cases hdecode : decodeSegment? segment with
    | none =>
      refine ⟨_, bind_eq_error_iff.2 (Or.inl ?_), plain_undecodable⟩
      exact askedText_eq_error_iff.2 ⟨hdecode, rfl⟩
    | some text =>
      refine ⟨_, bind_eq_error_iff.2 (Or.inr ⟨text, ?_, ?_⟩), plain_tooLarge⟩
      · exact askedText_eq_ok_iff.2 hdecode
      · exact bind_eq_error_iff.2 (Or.inl (checkSize_eq_error_iff.2 ⟨hsize, rfl⟩))

/-- A request about one product is refused for its path, for the size of its body, or for what is in
one of the two. -/
theorem product_refusal_cases {segment method : String}
    (h : (Route.product segment).asked method request = .error refusal) :
    refusal.Invalid ∨
      (decodeSegment? segment = none ∧ refusal = .plain 400 "Invalid URL: Invalid UTF-8 in `id`") ∨
      (method = "PUT" ∧ bodyLimit < request.body.length ∧ refusal = tooLarge) := by
  rcases bind_eq_error_iff.1 h with htext | ⟨text, -, h⟩
  · exact Or.inr (Or.inl (askedText_eq_error_iff.1 htext))
  by_cases hput : method = "PUT"
  · rw [if_pos hput] at h
    rcases bind_eq_error_iff.1 h with hsize | ⟨_, -, h⟩
    · exact Or.inr (Or.inr ⟨hput, checkSize_eq_error_iff.1 hsize⟩)
    rcases bind_eq_error_iff.1 h with hid | ⟨id, -, h⟩
    · exact Or.inl (invalid_of_askedId hid)
    rcases bind_eq_error_iff.1 h with hdraft | ⟨draft, -, ⟨⟩⟩
    exact Or.inl (invalid_of_askedDraft hdraft)
  · rw [if_neg hput] at h
    split_ifs at h
    · rcases bind_eq_error_iff.1 h with hid | ⟨id, -, ⟨⟩⟩
      exact Or.inl (invalid_of_askedId hid)
    · rcases bind_eq_error_iff.1 h with hid | ⟨id, -, ⟨⟩⟩
      exact Or.inl (invalid_of_askedId hid)

/-- A request that can be taken apart is refused for what is in one of its parts. -/
theorem refusal_cases (hroute : Route.of? request.target.path = some route)
    (hmethod : request.method ∈ route.productMethods) (h : asked request = .error refusal) :
    refusal.Invalid ∨ request.Garbled route := by
  rw [asked_of_productMethods hroute hmethod] at h
  cases route with
  | products =>
    rcases List.mem_pair.1 hmethod with hget | hdelete
    · rw [hget] at h
      rcases askedListing_cases h with hinvalid | ⟨name, hname, htwice⟩
      · exact Or.inl hinvalid
      · exact Or.inr (.query hget hname htwice)
    · rw [hdelete] at h
      cases h
  | newProduct =>
    rcases bind_eq_error_iff.1 h with hsize | ⟨_, -, h⟩
    · exact Or.inr (.body (checkSize_eq_error_iff.1 hsize).1)
    · rcases bind_eq_error_iff.1 h with hdraft | ⟨draft, -, ⟨⟩⟩
      exact Or.inl (invalid_of_askedDraft hdraft)
  | product segment =>
    rcases product_refusal_cases h with hinvalid | ⟨hdecode, -⟩ | ⟨hput, hsize, -⟩
    · exact Or.inl hinvalid
    · exact Or.inr (.segment hdecode)
    · exact Or.inr (.replacement hput hsize)
  | health => cases hmethod

theorem Request.trim_of_ne_head (request : Request) (h : request.method ≠ "HEAD")
    (response : Response) : request.trim response = response := if_neg h

/-- A request that is refused is refused without a call. -/
theorem play_of_refused (requestId : String) (answers : Answers)
    (h : asked request = .error refusal) :
    (serveLogged requestId request).play answers = ([], request.trim refusal) := by
  rw [serveLogged_eq, h]
  rfl

/-- An operation that is to blame on the client failed for want of the product. -/
theorem uniform_of_asks (requestId : String) (answers : Answers) (h : Asks request operation)
    (hhead : request.method ≠ "HEAD") :
    let response := ((serveLogged requestId request).play answers).2
    400 ≤ response.status → response.status < 500 → response.Uniform := by
  intro response hle hlt
  obtain ⟨hcourse, hstatus⟩ := status_serveLogged requestId h answers
  change response.status = _ at hstatus
  have hsuccess := operation.successStatus_bounds
  have hfailure := operation.le_failureStatus
  -- a success is below 400, and a failure of any other kind is told from 500 on
  have h404 : response.status = 404 := by
    rcases hcourse.status_cases with ⟨-, -, hs⟩ | ⟨-, -, hs⟩ | ⟨-, -, hs⟩
    · omega
    · exact hstatus.trans hs
    · omega
  have htold : response = tell operation ((operation.program requestId).play answers).2 := by
    rw [← request.trim_of_ne_head hhead (tell operation _)]
    exact congrArg Prod.snd (play_of_asks requestId answers h)
  rw [htold] at h404 ⊢
  exact uniform_of_missing h404

/-- **Refusals are uniform unless the request cannot be taken apart.** Whatever the backends answer,
a request about products is refused just if it is refused in the form that clients know or cannot be
taken apart. If it cannot, then the refusal is a plain text with no report, it is not in the form
that clients know, and no call is made. -/
theorem refused_uniformly_unless_garbled (requestId : String) (answers : Answers)
    (hroute : Route.of? request.target.path = some route)
    (hmethod : request.method ∈ route.productMethods) :
    let played := (serveLogged requestId request).play answers
    (400 ≤ played.2.status ∧ played.2.status < 500 ↔
      played.2.Uniform ∨ request.Garbled route) ∧
    (request.Garbled route →
      ¬ played.2.Uniform ∧ played.2.Plain ∧ played.2.report = none ∧ played.1 = []) := by
  intro played
  have hhead := (mem_methods_of_productMethods hmethod).2
  have hgarbled : request.Garbled route → ∃ refusal, refusal.Plain ∧ played = ([], refusal) := by
    intro h
    obtain ⟨refusal, hasked, hplain⟩ := h.asked_eq hroute hmethod
    refine ⟨refusal, hplain, ?_⟩
    rw [← request.trim_of_ne_head hhead refusal]
    exact play_of_refused requestId answers hasked
  refine ⟨⟨?_, ?_⟩, ?_⟩
  · rintro ⟨hle, hlt⟩
    cases hasked : asked request with
    | error refusal =>
      have hplayed : played.2 = refusal := by
        rw [← request.trim_of_ne_head hhead refusal]
        exact congrArg Prod.snd (play_of_refused requestId answers hasked)
      rw [hplayed]
      rcases refusal_cases hroute hmethod hasked with hinvalid | hgarbled
      · exact Or.inl (.invalid hinvalid)
      · exact Or.inr hgarbled
    | ok operation =>
      exact Or.inl (uniform_of_asks requestId answers (asks_of_asked hasked) hhead hle hlt)
  · rintro (huniform | h)
    · exact huniform.status_bounds
    · obtain ⟨refusal, hplain, hplayed⟩ := hgarbled h
      rw [hplayed]
      exact hplain.status_bounds
  · intro h
    obtain ⟨refusal, hplain, hplayed⟩ := hgarbled h
    rw [hplayed]
    refine ⟨hplain.not_uniform, hplain, ?_, rfl⟩
    obtain ⟨status, text, -, rfl⟩ := hplain
    rfl

/-- The segment is a percent sign and two digits that stand for a byte that begins no character. -/
theorem refused_uniformly_unless_garbled_undecodable :
    let request : Request := { method := "DELETE", target := ⟨"/product/%ff", none⟩ }
    let answers : Answers := fun
      | _, .cache _ => .error (.internal "down")
      | _, .store _ => .error .timeout
    let played := (serveLogged "a" request).play answers
    Route.of? request.target.path = some (.product "%ff") ∧
      request.method ∈ (Route.product "%ff").productMethods ∧
      400 ≤ played.2.status ∧ played.2.status < 500 ∧ ¬ played.2.Uniform := by
  intro request answers played
  have hroute : Route.of? request.target.path = some (.product "%ff") := by decide
  have hmethod : request.method ∈ (Route.product "%ff").productMethods := by decide
  have hgarbled : request.Garbled (.product "%ff") := .segment (by decide)
  obtain ⟨hstatus, hplain⟩ := refused_uniformly_unless_garbled "a" answers hroute hmethod
  obtain ⟨hle, hlt⟩ := hstatus.2 (Or.inr hgarbled)
  exact ⟨hroute, hmethod, hle, hlt, (hplain hgarbled).1⟩

/-- A listing whose limit is given twice is refused, and not in the form that clients know. -/
theorem repeated_limit_not_uniform :
    let request : Request := { method := "GET", target := ⟨"/products", some "limit=1&limit=2"⟩ }
    Route.of? request.target.path = some .products ∧
      request.method ∈ Route.productMethods .products ∧
      ∀ requestId answers,
        let response := ((serveLogged requestId request).play answers).2
        400 ≤ response.status ∧ response.status < 500 ∧ ¬ response.Uniform := by
  intro request
  have htwice : 2 ≤ request.target.times "limit" := by decide +kernel
  obtain ⟨refusal, hlisting, hplain⟩ := askedListing_of_twice (Or.inl rfl) htwice
  refine ⟨by decide, by decide, fun requestId answers => ?_⟩
  have hplayed : (serveLogged requestId request).play answers = ([], refusal) :=
    play_of_refused requestId answers hlisting
  rw [hplayed]
  exact ⟨hplain.status_bounds.1, hplain.status_bounds.2, hplain.not_uniform⟩

end Catalogue.Http
