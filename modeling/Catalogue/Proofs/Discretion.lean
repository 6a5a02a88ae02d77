import Catalogue.Proofs.Verdict
import Mathlib.Data.List.Forall2

/-!
# What backends say stays inside

Two runs are compared in which the backends answer alike: with the same values, and with errors of
the same kinds, but in whatever words. Then the runs go in *lockstep* (`Program.Lockstep`): they ask
the same and end alike, and differ at most in what they log. Every operation ends with the same
value, or with the same verdict on whether a product is missing (`Operation.lockstep`), and that is
all of an outcome that reaches a client (`Http.withoutReport_tell`).
-/

namespace Catalogue

/-- The kinds of store failures. -/
inductive StoreError.Kind where
  | notFound
  | persistence
  | timeout
  deriving DecidableEq, Repr

/-- A store failure without its words. -/
def StoreError.kind : StoreError → Kind
  | .notFound _ => .notFound
  | .persistence _ => .persistence
  | .timeout => .timeout

/-- The kinds of cache failures. -/
inductive CacheError.Kind where
  | notFound
  | internal
  deriving DecidableEq, Repr

/-- A cache failure without its words. -/
def CacheError.kind : CacheError → Kind
  | .notFound _ => .notFound
  | .internal _ => .internal

/-- Whether two answers to a call give the same value or an error of the same kind. -/
def Call.Alike : (call : Call) → call.Answer → call.Answer → Prop
  | .cache _, answer, answer' =>
    answer.mapError CacheError.kind = answer'.mapError CacheError.kind
  | .store _, answer, answer' =>
    answer.mapError StoreError.kind = answer'.mapError StoreError.kind

/-- Whether the same call was made twice and answered alike. -/
inductive Answered.Alike : Answered → Answered → Prop
  | intro {call : Call} {answer answer' : call.Answer} :
      call.Alike answer answer' → Alike ⟨call, answer⟩ ⟨call, answer'⟩

/-- Whether two runs that make the same call at the same place were answered alike there. -/
def AnsweredAlike (made made' : List Answered) : Prop :=
  ∀ (n : Nat) (a b : Answered), made[n]? = some a → made'[n]? = some b → a.call = b.call → a.Alike b

/-- A response as the client sees it: status, headers and body. -/
def Http.Response.withoutReport (response : Response) : Response := { response with report := none }

/-- Answers requests one after another. The answers of the backends are numbered throughout. -/
def Http.serveAll : List (String × Request) → Answers → List Answered × List Response
  | [], _ => ([], [])
  | (requestId, request) :: rest, answers =>
    let first := (serveLogged requestId request).play answers
    let others := serveAll rest fun n => answers (n + first.1.length)
    (first.1 ++ others.1, first.2 :: others.2)

/-! ### Places where runs are answered alike -/

section AnsweredAlike

variable {a b : Answered} {made made' more more' : List Answered}

theorem AnsweredAlike.of_cons (h : AnsweredAlike (a :: made) (b :: made')) :
    (a.call = b.call → a.Alike b) ∧ AnsweredAlike made made' :=
  ⟨h 0 a b rfl rfl, fun n => h (n + 1)⟩

theorem AnsweredAlike.of_forall₂ (h : List.Forall₂ Answered.Alike made made') :
    AnsweredAlike made made' := by
  intro n a b ha hb _
  obtain ⟨hlt, rfl⟩ := List.getElem?_eq_some_iff.1 ha
  obtain ⟨hlt', rfl⟩ := List.getElem?_eq_some_iff.1 hb
  exact h.get hlt hlt'

theorem AnsweredAlike.of_append (h : AnsweredAlike (made ++ more) (made' ++ more')) :
    AnsweredAlike made made' := by
  intro n a b ha hb
  have hlt := (List.getElem?_eq_some_iff.1 ha).1
  have hlt' := (List.getElem?_eq_some_iff.1 hb).1
  refine h n a b ?_ ?_
  · rwa [List.getElem?_append_left hlt]
  · rwa [List.getElem?_append_left hlt']

theorem AnsweredAlike.of_append_right (h : AnsweredAlike (made ++ more) (made' ++ more'))
    (hlength : made.length = made'.length) : AnsweredAlike more more' := by
  intro n a b ha hb
  refine h (made.length + n) a b ?_ ?_
  · rwa [List.getElem?_append_right (by omega), Nat.add_sub_cancel_left]
  · rwa [hlength, List.getElem?_append_right (by omega), Nat.add_sub_cancel_left]

end AnsweredAlike

/-! ### Programs in lockstep -/

namespace Program

variable {α β γ δ : Type} {R : α → β → Prop} {S : γ → δ → Prop}

/-- Two programs ask the same as long as they are answered alike, and end with values in `R`. What
they log is their own affair. -/
inductive Lockstep (R : α → β → Prop) : Program α → Program β → Prop
  | done {value : α} {value' : β} : R value value' → Lockstep R (.done value) (.done value')
  | ask {call : Call} {next : call.Answer → Program α} {next' : call.Answer → Program β} :
      (∀ answer answer', call.Alike answer answer' → Lockstep R (next answer) (next' answer')) →
        Lockstep R (.ask call next) (.ask call next')
  | log {event event' : Event} {rest : Program α} {rest' : Program β} :
      Lockstep R rest rest' → Lockstep R (.log event rest) (.log event' rest')

theorem Lockstep.bind {p : Program α} {q : Program β} {f : α → Program γ} {g : β → Program δ}
    (h : Lockstep R p q) (hnext : ∀ a b, R a b → Lockstep S (f a) (g b)) :
    Lockstep S (p >>= f) (q >>= g) := by
  induction h with
  | done hR => exact hnext _ _ hR
  | ask _ ih => exact .ask ih
  | log _ ih => exact .log ih

/-- A call of the cache stays in lockstep if the values are gone on with alike, and so are errors of
the same kind. -/
theorem lockstep_cache (call : CacheCall) {f : Except CacheError call.Value → Program α}
    {g : Except CacheError call.Value → Program β}
    (hok : ∀ value, Lockstep R (f (.ok value)) (g (.ok value)))
    (herror : ∀ e e' : CacheError, e.kind = e'.kind → Lockstep R (f (.error e)) (g (.error e'))) :
    Lockstep R (cache call >>= f) (cache call >>= g) := by
  refine .ask fun answer answer' halike => ?_
  change answer.mapError CacheError.kind = answer'.mapError CacheError.kind at halike
  rcases answer with e | value <;> rcases answer' with e' | value'
  · exact herror e e' (Except.error.inj halike)
  · cases halike
  · cases halike
  · obtain rfl := Except.ok.inj halike
    exact hok value

/-- So does a call of the store. -/
theorem lockstep_store (call : StoreCall) {f : Except StoreError call.Value → Program α}
    {g : Except StoreError call.Value → Program β}
    (hok : ∀ value, Lockstep R (f (.ok value)) (g (.ok value)))
    (herror : ∀ e e' : StoreError, e.kind = e'.kind → Lockstep R (f (.error e)) (g (.error e'))) :
    Lockstep R (store call >>= f) (store call >>= g) := by
  refine .ask fun answer answer' halike => ?_
  change answer.mapError StoreError.kind = answer'.mapError StoreError.kind at halike
  rcases answer with e | value <;> rcases answer' with e' | value'
  · exact herror e e' (Except.error.inj halike)
  · cases halike
  · cases halike
  · obtain rfl := Except.ok.inj halike
    exact hok value

/-- Programs in lockstep make the same calls and end alike, whatever they are answered, if it is
alike at the calls that they share. -/
theorem Lockstep.play {p : Program α} {q : Program β} (h : Lockstep R p q)
    {answers answers' : Answers}
    (hmade : AnsweredAlike (p.play answers).1 (q.play answers').1) :
    List.Forall₂ Answered.Alike (p.play answers).1 (q.play answers').1 ∧
      R (p.play answers).2 (q.play answers').2 := by
  induction h generalizing answers answers' with
  | done hR => exact ⟨.nil, hR⟩
  | @ask call next next' _ ih =>
    obtain ⟨hfirst, hrest⟩ := AnsweredAlike.of_cons hmade
    cases hfirst rfl with
    | intro halike =>
      obtain ⟨hcalls, hend⟩ := ih _ _ halike hrest
      exact ⟨.cons (.intro halike) hcalls, hend⟩
  | log _ ih => exact ih hmade

end Program

/-! ### Operations -/

/-- What an outcome decides: its value, or whether it failed because a product is missing. -/
def Outcome.verdict {α : Type} (outcome : Outcome α) : Except Bool α :=
  outcome.result.mapError Fault.isNotFound

/-- Whether two outcomes decide the same. -/
def Outcome.Agrees {α : Type} (outcome outcome' : Outcome α) : Prop :=
  outcome.verdict = outcome'.verdict

theorem Fault.isNotFound_ofStore (e : StoreError) :
    (Fault.ofStore e).isNotFound = (e.kind == .notFound) := by
  cases e <;> rfl

theorem Fault.isNotFound_ofCache (e : CacheError) :
    (Fault.ofCache e).isNotFound = (e.kind == .notFound) := by
  cases e <;> rfl

section

variable {α : Type} {earlier earlier' : List Fault}

theorem Outcome.agrees_ok (value : α) :
    Outcome.Agrees (.ok ⟨value, earlier⟩) (.ok ⟨value, earlier'⟩) := rfl

theorem Outcome.agrees_ofStore {e e' : StoreError} (h : e.kind = e'.kind) :
    Outcome.Agrees (α := α) (.error ⟨.ofStore e, earlier⟩) (.error ⟨.ofStore e', earlier'⟩) := by
  show Except.error (Fault.ofStore e).isNotFound = Except.error (Fault.ofStore e').isNotFound
  rw [Fault.isNotFound_ofStore, Fault.isNotFound_ofStore, h]

theorem Outcome.agrees_ofCache {e e' : CacheError} (h : e.kind = e'.kind) :
    Outcome.Agrees (α := α) (.error ⟨.ofCache e, earlier⟩) (.error ⟨.ofCache e', earlier'⟩) := by
  show Except.error (Fault.ofCache e).isNotFound = Except.error (Fault.ofCache e').isNotFound
  rw [Fault.isNotFound_ofCache, Fault.isNotFound_ofCache, h]

end

namespace Service

open Program

variable (requestId requestId' : String)

theorem fetchFromStore_lockstep (id : Int64) (earlier earlier' : List Fault) :
    Lockstep Outcome.Agrees (fetchFromStore requestId id earlier)
      (fetchFromStore requestId' id earlier') := by
  refine lockstep_store (.find id) (fun row => ?_) fun e e' hkind =>
    .done (Outcome.agrees_ofStore hkind)
  refine lockstep_cache (.set row) (fun _ => ?_) fun e e' _ => .log ?_
  · exact .done (Outcome.agrees_ok _)
  · exact .done (Outcome.agrees_ok _)

theorem fetch_lockstep (id : Int64) :
    Lockstep Outcome.Agrees (fetch requestId id) (fetch requestId' id) := by
  refine lockstep_cache (.get id) (fun text => .log (.done (Outcome.agrees_ok text))) ?_
  rintro (k | message) (k' | message') hkind
  · exact .log (fetchFromStore_lockstep requestId requestId' id _ _)
  · cases hkind
  · cases hkind
  · exact .log (fetchFromStore_lockstep requestId requestId' id _ _)

/-- An answer of the store that is passed on decides the same, whatever faults were before it. -/
theorem passOn_lockstep (call : StoreCall) (earlier earlier' : List Fault) :
    Lockstep Outcome.Agrees (store call >>= fun answer => pure (degraded earlier answer))
      (store call >>= fun answer => pure (degraded earlier' answer)) :=
  lockstep_store call (fun value => .done (Outcome.agrees_ok value)) fun _ _ hkind =>
    .done (Outcome.agrees_ofStore hkind)

theorem create_lockstep (draft : Draft) :
    Lockstep Outcome.Agrees (create requestId draft) (create requestId' draft) := by
  refine lockstep_store (.insert draft) (fun id => ?_) fun e e' hkind =>
    .done (Outcome.agrees_ofStore hkind)
  refine lockstep_cache (.set (draft.withId id)) (fun _ => ?_) fun e e' _ => .log ?_
  · exact .done (Outcome.agrees_ok _)
  · exact .done (Outcome.agrees_ok _)

theorem replace_lockstep (id : Int64) {change : Program (Except StoreError Product)}
    (hchange : ∀ earlier earlier',
      Lockstep Outcome.Agrees (conclude earlier change) (conclude earlier' change)) :
    Lockstep Outcome.Agrees (replace id change) (replace id change) := by
  rw [replace_eq]
  refine lockstep_cache (.delete id) (fun _ => hchange [] []) ?_
  rintro (k | message) (k' | message') hkind
  · exact hchange _ _
  · cases hkind
  · cases hkind
  · exact .done (Outcome.agrees_ofCache hkind)

theorem deleteAll_lockstep :
    Lockstep Outcome.Agrees (deleteAll requestId) (deleteAll requestId') := by
  refine lockstep_cache .clear (fun _ => ?_) fun e e' hkind => .done (Outcome.agrees_ofCache hkind)
  refine lockstep_store .purge (fun count => ?_) fun e e' hkind => .log ?_
  · exact .done (Outcome.agrees_ok count)
  · exact .done (Outcome.agrees_ofStore hkind)

end Service

open Program in
/-- Every operation goes in lockstep with itself. -/
theorem Operation.lockstep (requestId requestId' : String) (operation : Operation) :
    Lockstep Outcome.Agrees (operation.program requestId) (operation.program requestId') := by
  cases operation with
  | fetch id => exact Service.fetch_lockstep requestId requestId' id
  | list =>
    exact lockstep_store .list (fun rows => .done (Outcome.agrees_ok rows)) fun _ _ hkind =>
      .done (Outcome.agrees_ofStore hkind)
  | page window =>
    exact lockstep_store (.page window) (fun rows => .done (Outcome.agrees_ok rows))
      fun _ _ hkind => .done (Outcome.agrees_ofStore hkind)
  | create draft => exact Service.create_lockstep requestId requestId' draft
  | update id draft =>
    exact Service.replace_lockstep id (Service.passOn_lockstep (.update id draft))
  | delete id => exact Service.replace_lockstep id (Service.passOn_lockstep (.delete id))
  | deleteAll => exact Service.deleteAll_lockstep requestId requestId'
  | ping =>
    have hping : ∀ requestId, Operation.ping.program requestId =
        store .ping >>= fun answer => pure (degraded [] answer) := by
      refine fun _ => congrArg (Program.ask (.store .ping)) (funext fun answer => ?_)
      cases answer <;> rfl
    rw [hping requestId, hping requestId']
    exact Service.passOn_lockstep .ping [] []

/-! ### Responses -/

namespace Http

theorem withoutReport_answer {α : Type} (status : Nat) (namesProduct : Bool) (render : α → String)
    {outcome outcome' : Outcome α} (h : outcome.Agrees outcome') :
    (answer status namesProduct render outcome).withoutReport =
      (answer status namesProduct render outcome').withoutReport := by
  rcases outcome with failure | served <;> rcases outcome' with failure' | served'
  · have hcritical : failure.critical.isNotFound = failure'.critical.isNotFound :=
      Except.error.inj h
    show (ApiError.ofFaults handlerSource failure.report namesProduct).response.withoutReport =
      (ApiError.ofFaults handlerSource failure'.report namesProduct).response.withoutReport
    have hreport : failure.report.isNotFound = failure'.report.isNotFound := hcritical
    unfold ApiError.ofFaults
    rw [hreport]
    split <;> rfl
  · cases h
  · cases h
  · have hvalue : served.value = served'.value := Except.ok.inj h
    show Response.json status (render served.value) none = .json status (render served'.value) none
    rw [hvalue]

/-- Outcomes that decide the same are told the same. -/
theorem withoutReport_tell (operation : Operation) {outcome outcome' : Outcome operation.Value}
    (h : outcome.Agrees outcome') :
    (tell operation outcome).withoutReport = (tell operation outcome').withoutReport := by
  cases operation with
  | ping =>
    rcases outcome with failure | served <;> rcases outcome' with failure' | served'
    · rfl
    · cases h
    · cases h
    · rfl
  | fetch id | list | page window | create draft | update id draft | delete id | deleteAll =>
    exact withoutReport_answer _ _ _ h

theorem withoutReport_trim (request : Request) (response : Response) :
    (request.trim response).withoutReport = request.trim response.withoutReport := by
  unfold Request.trim
  split <;> rfl

open Program in
/-- Every request goes in lockstep with itself, to responses that look the same to the client. -/
theorem serveLogged_lockstep (requestId requestId' : String) (request : Request) :
    Lockstep (fun response response' => response.withoutReport = response'.withoutReport)
      (serveLogged requestId request) (serveLogged requestId' request) := by
  have htold : Lockstep (fun response response' => response.withoutReport = response'.withoutReport)
      (unlessRefused (asked request) (perform requestId))
      (unlessRefused (asked request) (perform requestId')) := by
    cases asked request with
    | error refusal => exact .done rfl
    | ok operation =>
      exact (operation.lockstep requestId requestId').bind fun outcome outcome' hagrees =>
        .done (withoutReport_tell operation hagrees)
  rw [serveLogged_eq, serveLogged_eq]
  refine htold.bind fun response response' hsame => .log (.done ?_)
  rw [withoutReport_trim, withoutReport_trim, hsame]

/-- **What backends say does not reach the client.** Requests are answered one after another in two
runs, in which the backends give the same values, and errors of the same kinds in whatever words,
at the calls that both runs make at the same place. Then both runs make the same calls throughout,
and the client gets the same responses: status, headers and body. Only the reports for the log may
differ. -/
theorem errors_undisclosed {visits visits' : List (String × Request)} {answers answers' : Answers}
    (hrequests : visits.map Prod.snd = visits'.map Prod.snd)
    (hmade : AnsweredAlike (serveAll visits answers).1 (serveAll visits' answers').1) :
    List.Forall₂ Answered.Alike (serveAll visits answers).1 (serveAll visits' answers').1 ∧
      (serveAll visits answers).2.map Response.withoutReport =
        (serveAll visits' answers').2.map Response.withoutReport := by
  induction visits generalizing visits' answers answers' with
  | nil =>
    cases visits' with
    | nil => exact ⟨.nil, rfl⟩
    | cons visit' rest' => cases hrequests
  | cons visit rest ih =>
    cases visits' with
    | nil => cases hrequests
    | cons visit' rest' =>
      obtain ⟨requestId, request⟩ := visit
      obtain ⟨requestId', request'⟩ := visit'
      obtain ⟨rfl, hrest⟩ : request = request' ∧ rest.map Prod.snd = rest'.map Prod.snd :=
        List.cons.inj hrequests
      obtain ⟨hcalls, hresponse⟩ :=
        (serveLogged_lockstep requestId requestId' request).play hmade.of_append
      have hmore := hmade.of_append_right hcalls.length_eq
      obtain ⟨hcalls', hresponses⟩ := ih hrest hmore
      refine ⟨List.rel_append hcalls hcalls', ?_⟩
      exact congrArg₂ List.cons hresponse hresponses

/-- The cache is down and later has no text, and the store finds the row and later fails, each time
with other words. -/
theorem errors_undisclosed_two_reads :
    let get : Request := { method := "GET", target := ⟨"/product/1", none⟩ }
    let answers (cacheSays storeSays : String) : Answers := fun
      | 3, .cache (.get _) => .error (.notFound 1)
      | _, .cache _ => .error (.internal cacheSays)
      | 1, .store (.find _) => .ok ⟨1, "tea", "green"⟩
      | _, .store _ => .error (.persistence storeSays)
    let first := serveAll [("a", get), ("b", get)] (answers "no socket" "table is locked")
    let second := serveAll [("c", get), ("d", get)] (answers "reset by peer" "disk is full")
    AnsweredAlike first.1 second.1 ∧ first.2 ≠ second.2 ∧
      first.2.map Response.status = [200, 500] ∧
      first.2.map Response.withoutReport = second.2.map Response.withoutReport := by
  intro get answers first second
  have hroute : Route.of? "/product/1" = some (.product "1") := by decide
  have hsegment : decodeSegment? "1" = some "1" := by decide
  have hid : readId "1" = .ok 1 := by decide
  have hplay : ∀ requestId answers, (serveLogged requestId get).play answers = _ :=
    fun requestId answers => play_of_asks requestId answers (.fetch hroute (.inl rfl) hsegment hid)
  have hcalls : ∀ a b cacheSays storeSays,
      (serveAll [(a, get), (b, get)] (answers cacheSays storeSays)).1 =
        [⟨.cache (.get 1), .error (.internal cacheSays)⟩,
          ⟨.store (.find 1), .ok ⟨1, "tea", "green"⟩⟩,
          ⟨.cache (.set ⟨1, "tea", "green"⟩), .error (.internal cacheSays)⟩,
          ⟨.cache (.get 1), .error (.notFound 1)⟩,
          ⟨.store (.find 1), .error (.persistence storeSays)⟩] := by
    intro a b cacheSays storeSays
    simp only [serveAll, hplay]
    rfl
  have hmade : AnsweredAlike first.1 second.1 := by
    refine .of_forall₂ ?_
    simp only [first, second, hcalls]
    exact .cons (.intro rfl) (.cons (.intro rfl) (.cons (.intro rfl) (.cons (.intro rfl)
      (.cons (.intro rfl) .nil))))
  have hwords : first.2.map Response.report ≠ second.2.map Response.report := by
    simp only [first, second, serveAll, hplay]
    decide
  have hstatus : first.2.map Response.status = [200, 500] := by
    simp only [first, serveAll, hplay]
    rfl
  refine ⟨hmade, fun hsame => hwords (congrArg _ hsame), hstatus, ?_⟩
  exact (errors_undisclosed (by rfl) hmade).2

end Http

end Catalogue
