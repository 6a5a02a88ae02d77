import Catalogue.Proofs.Refusal

/-!
# How gravely a request is logged

A request leaves one event under the target of the request log, after whatever the service logged
on the way (`Http.events_serveLogged`, `Operation.logsTo`). Its level ought to follow from the
response: the log is to warn of every refusal and of every success that comes with a report. But the
level is chosen by the report first, and not every refusal has one. Refusals for what a part of the
request says have one; those from before the parts are read have none
(`Http.Request.Unhandled.refused`, `Http.unhandled_or_invalid`). So the level is the due one just
for the requests that some handler takes, and a request that none takes is logged as if it had been
served.
-/

namespace Catalogue

namespace Program

variable {α β : Type} {target : String}

/-- The events logged in a play, in order. -/
def events : Program α → Answers → List Event
  | .done _, _ => []
  | .ask call next, answers => (next (answers 0 call)).events fun n => answers (n + 1)
  | .log event rest, answers => event :: rest.events answers

/-- Whatever the calls are answered, events are logged under no other target. -/
def LogsTo (target : String) : Program α → Prop
  | .done _ => True
  | .ask _ next => ∀ answer, (next answer).LogsTo target
  | .log event rest => event.target = target ∧ rest.LogsTo target

/-- What goes on is answered from where the calls before left off. -/
theorem events_bind (program : Program α) (f : α → Program β) (answers : Answers) :
    (program >>= f).events answers =
      program.events answers ++ (f (program.play answers).2).events fun n =>
        answers (n + (program.play answers).1.length) := by
  induction program generalizing answers with
  | done value => rfl
  | ask call next ih => exact ih (answers 0 call) fun n => answers (n + 1)
  | log event rest ih => exact congrArg (event :: ·) (ih answers)

theorem LogsTo.bind {program : Program α} {f : α → Program β} (h : program.LogsTo target)
    (hf : ∀ value, (f value).LogsTo target) : (program >>= f).LogsTo target := by
  induction program with
  | done value => exact hf value
  | ask call next ih => exact fun answer => ih answer (h answer)
  | log event rest ih => exact ⟨h.1, ih h.2⟩

theorem LogsTo.target_eq {program : Program α} (h : program.LogsTo target) {answers : Answers}
    {event : Event} (hevent : event ∈ program.events answers) : event.target = target := by
  induction program generalizing answers with
  | done value => cases hevent
  | ask call next ih => exact ih (answers 0 call) (h (answers 0 call)) hevent
  | log first rest ih =>
    rcases List.mem_cons.1 hevent with rfl | hrest
    · exact h.1
    · exact ih h.2 hrest

end Program

namespace Service

open Program

theorem fetchFromStore_logsTo (requestId : String) (id : Int64) (earlier : List Fault) :
    (fetchFromStore requestId id earlier).LogsTo target := by
  rintro (e | row)
  · trivial
  · rintro (e | _)
    · exact ⟨rfl, trivial⟩
    · trivial

theorem fetch_logsTo (requestId : String) (id : Int64) :
    (fetch requestId id).LogsTo target := by
  rintro ((missing | message) | text)
  · exact ⟨rfl, fetchFromStore_logsTo requestId id []⟩
  · exact ⟨rfl, fetchFromStore_logsTo requestId id [.ofCache (.internal message)]⟩
  · exact ⟨rfl, trivial⟩

theorem create_logsTo (requestId : String) (draft : Draft) :
    (create requestId draft).LogsTo target := by
  rintro (e | id)
  · trivial
  · rintro (e | _)
    · exact ⟨rfl, trivial⟩
    · trivial

theorem invalidate_logsTo (id : Int64) : (invalidate id).LogsTo target := by
  rintro ((missing | message) | _)
  · trivial
  · trivial
  · trivial

theorem replace_logsTo (id : Int64) {change : Program (Except StoreError Product)}
    (h : change.LogsTo target) : (replace id change).LogsTo target := by
  refine (invalidate_logsTo id).bind fun dropped => ?_
  rcases dropped with failure | earlier
  · trivial
  · refine h.bind fun answer => ?_
    cases answer <;> trivial

theorem deleteAll_logsTo (requestId : String) : (deleteAll requestId).LogsTo target := by
  rintro (e | _)
  · trivial
  · rintro (e | count)
    · exact ⟨rfl, trivial⟩
    · trivial

end Service

/-- An operation logs under the target of the service only. -/
theorem Operation.logsTo (operation : Operation) (requestId : String) :
    (operation.program requestId).LogsTo Service.target := by
  cases operation with
  | fetch id => exact Service.fetch_logsTo requestId id
  | create draft => exact Service.create_logsTo requestId draft
  | update id draft => exact Service.replace_logsTo id fun _ => trivial
  | delete id => exact Service.replace_logsTo id fun _ => trivial
  | deleteAll => exact Service.deleteAll_logsTo requestId
  | list | page window | ping => rintro (e | value) <;> trivial

namespace Http

/-- A request for the head alone is read as one for the whole. -/
def Request.asRead (request : Request) : Request :=
  if request.method = "HEAD" then { request with method := "GET" } else request

/-- **Requests that no handler takes**: nothing is served under the path, the path does not serve
the method, or the request cannot be taken apart. -/
inductive Request.Unhandled (request : Request) : Prop
  | path : Route.of? request.target.path = none → request.Unhandled
  | method {route : Route} : Route.of? request.target.path = some route →
      request.method ∉ route.methods → request.Unhandled
  | garbled {route : Route} : Route.of? request.target.path = some route →
      request.method ∈ route.methods → request.asRead.Garbled route → request.Unhandled

/-- The level that a response is to be logged at: a failure is an error, a refusal or a success in
spite of faults is a warning, and everything else is information. -/
def Response.dueLevel (response : Response) : Level :=
  if 500 ≤ response.status then .error
  else if 400 ≤ response.status then .warn
  else if response.report.isSome then .warn
  else .info

variable {request : Request} {route : Route} {refusal : Response} {operation : Operation}
  (requestId : String) (answers : Answers)

/-! ### One event for a request -/

theorem serve_logsTo (request : Request) : (serve requestId request).LogsTo Service.target := by
  rw [serve_eq]
  refine Program.LogsTo.bind ?_ fun _ => trivial
  cases asked request with
  | error refusal => trivial
  | ok operation => exact (operation.logsTo requestId).bind fun _ => trivial

/-- The request log has the last word. -/
theorem events_serveLogged (request : Request) :
    (serveLogged requestId request).events answers =
      (serve requestId request).events answers ++
        [accessEvent requestId request ((serveLogged requestId request).play answers).2] := by
  have hplay : (serveLogged requestId request).play answers =
      (serve requestId request).play answers :=
    Program.play_bind_of_quiet (serve requestId request) (g := id) (fun _ _ => rfl) answers
  rw [hplay]
  exact Program.events_bind (serve requestId request) _ answers

theorem filter_events_serveLogged (request : Request) :
    ((serveLogged requestId request).events answers).filter (·.target = accessTarget) =
      [accessEvent requestId request ((serveLogged requestId request).play answers).2] := by
  have hservice : ∀ event ∈ (serve requestId request).events answers,
      ¬ decide (event.target = accessTarget) = true := by
    intro event hevent
    rw [(serve_logsTo requestId request).target_eq hevent]
    decide
  rw [events_serveLogged, List.filter_append, List.filter_eq_nil_iff.2 hservice]
  rfl

/-- Nothing but the refusal is logged of a request that is refused. -/
theorem events_of_refused (h : asked request = .error refusal) :
    (serveLogged requestId request).events answers =
      [accessEvent requestId request (request.trim refusal)] := by
  rw [serveLogged_eq, h]
  rfl

/-! ### The requests that no handler takes -/

theorem Route.asked_asRead (route : Route) (method : String) (request : Request) :
    route.asked method request.asRead = route.asked method request := by
  unfold Request.asRead
  split
  · cases route <;> rfl
  · rfl

theorem Request.route_asRead (request : Request) :
    Route.of? request.asRead.target.path = Route.of? request.target.path := by
  unfold Request.asRead
  split <;> rfl

theorem Request.method_asRead (request : Request) :
    request.asRead.method = if request.method = "HEAD" then "GET" else request.method := by
  unfold Request.asRead
  split <;> rfl

/-- What a path serves is about products, or checks the health. -/
theorem Request.asRead_mem_productMethods (h : request.method ∈ route.methods)
    (hroute : route ≠ .health) : request.asRead.method ∈ route.productMethods := by
  rw [request.method_asRead]
  cases route with
  | products =>
    simp only [Route.methods, List.mem_cons, List.not_mem_nil, or_false] at h
    rcases h with h | h | h <;> rw [h] <;> decide
  | newProduct =>
    rw [List.mem_singleton.1 h]
    decide
  | product segment =>
    simp only [Route.methods, List.mem_cons, List.not_mem_nil, or_false] at h
    rcases h with h | h | h | h <;> rw [h] <;> simp [Route.productMethods]
  | health => exact absurd rfl hroute

/-- What a route is asked for is the same if the request is read first. -/
theorem asked_asRead (hroute : Route.of? request.target.path = some route)
    (hmethod : request.method ∈ route.methods) (hhealth : route ≠ .health) :
    asked request.asRead = asked request := by
  rw [asked_of_productMethods (request.route_asRead.trans hroute)
    (Request.asRead_mem_productMethods hmethod hhealth), asked_of_method hroute rfl hmethod,
    route.asked_asRead, request.method_asRead]

theorem asked_of_no_path (h : Route.of? request.target.path = none) :
    asked request = .error .noSuchPath := by
  unfold asked
  rw [h]

theorem asked_of_no_method (hroute : Route.of? request.target.path = some route)
    (h : request.method ∉ route.methods) :
    asked request = .error (.noSuchMethod route.methods) := by
  unfold asked
  rw [hroute]
  exact if_pos h

/-- A request that no handler takes is refused without a report. -/
theorem Request.Unhandled.refused (h : request.Unhandled) :
    ∃ refusal, asked request = .error refusal ∧ 400 ≤ refusal.status ∧ refusal.status < 500 ∧
      refusal.report = none := by
  cases h with
  | path hpath => exact ⟨_, asked_of_no_path hpath, by decide, by decide, rfl⟩
  | method hroute hmethod =>
    refine ⟨_, asked_of_no_method hroute hmethod, ?_, ?_, rfl⟩
    · simp [Response.noSuchMethod]
    · simp [Response.noSuchMethod]
  | @garbled route hroute hmethod hgarbled =>
    have hhealth : route ≠ .health := by
      rintro rfl
      cases hgarbled
    obtain ⟨refusal, hasked, hplain⟩ := hgarbled.asked_eq (request.route_asRead.trans hroute)
      (Request.asRead_mem_productMethods hmethod hhealth)
    rw [asked_asRead hroute hmethod hhealth] at hasked
    refine ⟨refusal, hasked, hplain.status_bounds.1, hplain.status_bounds.2, ?_⟩
    obtain ⟨status, text, -, rfl⟩ := hplain
    rfl

/-- A request that some handler takes is refused for what one of its parts says. -/
theorem unhandled_or_invalid (h : asked request = .error refusal) :
    request.Unhandled ∨ refusal.Invalid := by
  cases hroute : Route.of? request.target.path with
  | none => exact Or.inl (.path hroute)
  | some route =>
    by_cases hmethod : request.method ∈ route.methods
    · by_cases hhealth : route = .health
      · subst hhealth
        rw [asked_of_method hroute rfl hmethod] at h
        cases h
      · rw [← asked_asRead hroute hmethod hhealth] at h
        have hproduct := Request.asRead_mem_productMethods hmethod hhealth
        rcases refusal_cases (request.route_asRead.trans hroute) hproduct h with hinvalid | hgarbled
        · exact Or.inr hinvalid
        · exact Or.inl (.garbled hroute hmethod hgarbled)
    · exact Or.inl (.method hroute hmethod)

/-! ### How a request may end -/

/-- **How a request may end**, so far as its level is concerned. -/
inductive Request.EndsWith (request : Request) (response : Response) : Prop
  /-- A handler took the request and was successful, perhaps in spite of faults. -/
  | success (handled : ¬ request.Unhandled) (le : 200 ≤ response.status)
      (lt : response.status < 300)
  /-- A handler took the request, and the report says what it failed or was refused for. -/
  | reported (handled : ¬ request.Unhandled) (le : 400 ≤ response.status)
      (lt : response.status < 600) (report : response.report ≠ none)
  /-- No handler took the request. -/
  | unhandled (unhandled : request.Unhandled) (le : 400 ≤ response.status)
      (lt : response.status < 500) (report : response.report = none)

theorem statusOf_error_bounds (operation : Operation) (fault : Fault) :
    400 ≤ operation.statusOf (.error fault) ∧ operation.statusOf (.error fault) < 600 := by
  show 400 ≤ (if _ then _ else _) ∧ (if _ then _ else _) < 600
  split
  · decide
  · cases operation <;> simp [Operation.failureStatus]

theorem endsWith_of_asks (h : Asks request operation) (handled : ¬ request.Unhandled) :
    request.EndsWith ((serveLogged requestId request).play answers).2 := by
  have hstatus := (status_serveLogged requestId h answers).2
  have hreport := report_serveLogged requestId h answers
  dsimp only at hstatus hreport
  rcases houtcome : ((operation.program requestId).play answers).2 with failure | served
  · rw [houtcome] at hstatus hreport
    obtain ⟨hle, hlt⟩ := statusOf_error_bounds operation failure.critical
    rw [← show _ = operation.statusOf (.error failure.critical) from hstatus] at hle hlt
    exact .reported handled hle hlt (by rw [hreport]; exact nofun)
  · rw [houtcome] at hstatus
    obtain ⟨hle, hlt⟩ := operation.successStatus_bounds
    rw [← show _ = operation.successStatus from hstatus] at hle hlt
    exact .success handled hle hlt

/-- Whatever the backends answer, a request ends in one of these ways. -/
theorem endsWith (request : Request) :
    request.EndsWith ((serveLogged requestId request).play answers).2 := by
  by_cases hunhandled : request.Unhandled
  · obtain ⟨refusal, hasked, hle, hlt, hreport⟩ := hunhandled.refused
    rw [play_of_refused requestId answers hasked]
    exact .unhandled hunhandled (by rwa [status_trim]) (by rwa [status_trim])
      (by rwa [report_trim])
  · cases hasked : asked request with
    | ok operation => exact endsWith_of_asks requestId answers (asks_of_asked hasked) hunhandled
    | error refusal =>
      have hinvalid := (unhandled_or_invalid hasked).resolve_left hunhandled
      obtain ⟨report, detail, hreport, -⟩ := hinvalid.report
      have hstatus : (request.trim refusal).status = 400 := by rw [status_trim, hinvalid.status]
      have hresponse := congrArg Prod.snd (play_of_refused requestId answers hasked)
      dsimp only at hresponse
      rw [hresponse]
      refine .reported hunhandled (by omega) (by omega) ?_
      rw [report_trim, hreport]
      exact nofun

/-! ### The level -/

/-- The level of the event of a response, by its status and by whether a report goes along. -/
theorem level_accessEvent (request : Request) (response : Response) :
    let level := (accessEvent requestId request response).level
    (level = .error ↔ 500 ≤ response.status) ∧
      (level = .warn ↔ response.status < 500 ∧ response.report ≠ none) ∧
      (level = .info ↔ response.status < 500 ∧ response.report = none) := by
  intro level
  have hlevel : level = (accessLevel response.status response.report.isSome).1 := rfl
  rw [hlevel]
  unfold accessLevel
  cases response.report <;> split_ifs <;> simp_all

/-- The report does for the status unless a refusal has none. -/
theorem Request.EndsWith.level_eq_dueLevel_iff {response : Response}
    (h : request.EndsWith response) :
    (accessEvent requestId request response).level = response.dueLevel ↔ ¬ request.Unhandled := by
  obtain ⟨herror, hwarn, hinfo⟩ := level_accessEvent requestId request response
  unfold Response.dueLevel
  cases h with
  | success handled le lt =>
    refine iff_of_true ?_ handled
    rw [if_neg (by omega), if_neg (by omega)]
    cases hreport : response.report with
    | none => exact hinfo.2 ⟨by omega, hreport⟩
    | some report => exact hwarn.2 ⟨by omega, by rw [hreport]; exact nofun⟩
  | reported handled le lt report =>
    refine iff_of_true ?_ handled
    by_cases hfailure : 500 ≤ response.status
    · rw [if_pos hfailure]
      exact herror.2 hfailure
    · rw [if_neg hfailure, if_pos le]
      exact hwarn.2 ⟨by omega, report⟩
  | unhandled unhandled le lt report =>
    refine iff_of_false ?_ (not_not_intro unhandled)
    rw [if_neg (by omega), if_pos le, hinfo.2 ⟨lt, report⟩]
    exact nofun

/-- **What the request log tells of a request.** Whatever the backends answer, a request leaves
exactly one event under the target of the request log, as the last of all, and the response alone
decides its level: an error for every failure of the service, which always has a report; otherwise a
warning if a report goes along, and information if none does. So the level is the one that the
response is to be logged at just for the requests that a handler takes. A request that none takes is
refused without a report and without a call, and the refusal is logged as information. -/
theorem level_due_unless_unhandled (request : Request) :
    let events := (serveLogged requestId request).events answers
    let played := (serveLogged requestId request).play answers
    ∃ event, events.filter (·.target = accessTarget) = [event] ∧ events.getLast? = some event ∧
      event = accessEvent requestId request played.2 ∧
      (event.level = .error ↔ 500 ≤ played.2.status) ∧
      (event.level = .warn ↔ played.2.status < 500 ∧ played.2.report ≠ none) ∧
      (event.level = .info ↔ played.2.status < 500 ∧ played.2.report = none) ∧
      (200 ≤ played.2.status ∧ played.2.status < 300 ∨
        400 ≤ played.2.status ∧ played.2.status < 600) ∧
      (500 ≤ played.2.status → played.2.report ≠ none) ∧
      (event.level = played.2.dueLevel ↔ ¬ request.Unhandled) ∧
      (request.Unhandled → 400 ≤ played.2.status ∧ event.level = .info ∧ played.1 = [] ∧
        events = [event]) := by
  intro events played
  have hends : request.EndsWith played.2 := endsWith requestId answers request
  obtain ⟨herror, hwarn, hinfo⟩ := level_accessEvent requestId request played.2
  refine ⟨accessEvent requestId request played.2,
    filter_events_serveLogged requestId answers request, ?_, rfl, herror, hwarn, hinfo, ?_, ?_,
    hends.level_eq_dueLevel_iff requestId, fun hunhandled => ?_⟩
  · rw [show events = _ from events_serveLogged requestId answers request]
    exact List.getLast?_concat
  · cases hends with
    | success _ le lt => exact Or.inl ⟨le, lt⟩
    | reported _ le lt => exact Or.inr ⟨le, lt⟩
    | unhandled _ le lt => exact Or.inr ⟨le, by omega⟩
  · cases hends with
    | success _ le lt => omega
    | reported _ _ _ report => exact fun _ => report
    | unhandled _ le lt => omega
  · obtain ⟨refusal, hasked, -⟩ := hunhandled.refused
    cases hends with
    | success handled => exact absurd hunhandled handled
    | reported handled => exact absurd hunhandled handled
    | unhandled _ le lt report =>
      have hplayed : played = ([], request.trim refusal) :=
        play_of_refused requestId answers hasked
      refine ⟨le, hinfo.2 ⟨lt, report⟩, by rw [hplayed], ?_⟩
      rw [hplayed]
      exact events_of_refused requestId answers hasked

/-- A path that nothing is served under is answered with a refusal, and the refusal is logged as
information. -/
theorem unknown_path_logged_as_information :
    let request : Request := { method := "GET", target := ⟨"/nowhere", none⟩ }
    ∀ requestId answers,
      let response := ((serveLogged requestId request).play answers).2
      let events := (serveLogged requestId request).events answers
      response.status = 404 ∧ response.dueLevel = .warn ∧ events.map Event.level = [.info] := by
  intro request requestId answers response events
  have hasked : asked request = .error .noSuchPath := asked_of_no_path (by decide)
  have hresponse : response = .noSuchPath :=
    congrArg Prod.snd (play_of_refused requestId answers hasked)
  have hevents : events = [accessEvent requestId request .noSuchPath] :=
    events_of_refused requestId answers hasked
  rw [hresponse, hevents]
  exact ⟨rfl, rfl, rfl⟩

end Http

end Catalogue
