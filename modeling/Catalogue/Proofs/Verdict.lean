import Catalogue.Proofs.Asked
import Catalogue.Proofs.Course

/-!
# What the status of a response says

Two steps lead from what the backends answered to the status of a response. The answers decide the
result of the operation: it succeeds if and only if they *grant* it, and it fails for want of the
product if and only if they say that it is *missing* (`Operation.Course.granted_iff`,
`Operation.Course.missing_iff`). The result in turn decides the status (`Http.status_tell`). Both
are matters of cases, over the courses of operations and over operations; together they classify
every request that is not refused (`Operation.Course.status_cases`).
-/

namespace Catalogue

/-- Whether a backend answered that a product is missing. -/
def Answered.isNotFound (answered : Answered) : Bool := answered.fault?.any Fault.isNotFound

/-- Whether a call was made and succeeded. -/
def Succeeded (made : List Answered) (call : Call) : Prop :=
  ∃ answered ∈ made, answered.call = call ∧ answered.fault? = none

/-- Whether a call was made and answered with that the product is missing. -/
def Missed (made : List Answered) (call : Call) : Prop :=
  ∃ answered ∈ made, answered.call = call ∧ answered.isNotFound = true

/-- Whether the cached text of a product was dropped, or there was none. -/
def DroppedIn (made : List Answered) (id : Int64) : Prop :=
  Succeeded made (.cache (.delete id)) ∨ Missed made (.cache (.delete id))

/-- Whether these calls were made and no others, and all of them succeeded. -/
def AllSucceeded (made : List Answered) (calls : List Call) : Prop :=
  made.map Answered.call = calls ∧ ∀ answered ∈ made, answered.fault? = none

namespace Operation

/-- What the backends have to answer for an operation to succeed. -/
def Granted (made : List Answered) : Operation → Prop
  | .fetch id => Succeeded made (.cache (.get id)) ∨ Succeeded made (.store (.find id))
  | .list => AllSucceeded made [.store .list]
  | .page window => AllSucceeded made [.store (.page window)]
  | .create draft => Succeeded made (.store (.insert draft))
  | .update id draft => DroppedIn made id ∧ Succeeded made (.store (.update id draft))
  | .delete id => DroppedIn made id ∧ Succeeded made (.store (.delete id))
  | .deleteAll => AllSucceeded made [.cache .clear, .store .purge]
  | .ping => Succeeded made (.store .ping)

/-- What the backends have to answer for the client to be told that a product is missing. -/
def Missing (made : List Answered) : Operation → Prop
  | .fetch id => ¬ Succeeded made (.cache (.get id)) ∧ Missed made (.store (.find id))
  | .update id draft => DroppedIn made id ∧ Missed made (.store (.update id draft))
  | .delete id => DroppedIn made id ∧ Missed made (.store (.delete id))
  | .list | .page _ | .create _ | .deleteAll | .ping => False

/-- Whether an operation is about one product that the request names. -/
def namesProduct : Operation → Bool
  | .fetch _ | .update _ _ | .delete _ => true
  | .list | .page _ | .create _ | .deleteAll | .ping => false

/-- The status of a success. -/
def successStatus : Operation → Nat
  | .create _ => 201
  | .ping => 204
  | _ => 200

/-- The status of a failure. -/
def failureStatus : Operation → Nat
  | .ping => 503
  | _ => 500

/-- The status that the result of an operation is told with. -/
def statusOf (operation : Operation) : Except Fault operation.Value → Nat
  | .ok _ => operation.successStatus
  | .error fault =>
    if operation.namesProduct && fault.isNotFound then 404 else operation.failureStatus

/-- Where the reports of an operation come from. -/
def reportSource : Operation → String
  | .ping => Http.healthSource
  | _ => Http.handlerSource

end Operation

/-! ### From the answers to the result -/

variable {made more : List Answered}

theorem IsDropped.cases {dropped : Except CacheError Unit} (h : IsDropped dropped) :
    dropped = .ok () ∨ ∃ k, dropped = .error (.notFound k) := by
  rcases dropped with (k | message) | _
  · exact Or.inr ⟨k, rfl⟩
  · exact absurd rfl (h message)
  · exact Or.inl rfl

theorem IsDropped.droppedIn {dropped : Except CacheError Unit} (h : IsDropped dropped)
    (id : Int64) :
    DroppedIn (⟨.cache (.delete id), dropped⟩ :: more) id := by
  rcases h.cases with rfl | ⟨k, rfl⟩
  · exact Or.inl ⟨_, List.mem_cons_self .., rfl, rfl⟩
  · exact Or.inr ⟨_, List.mem_cons_self .., rfl, rfl⟩

theorem not_droppedIn (id : Int64) (message : String) :
    ¬ DroppedIn [⟨.cache (.delete id), .error (.internal message)⟩] id := by
  simp [DroppedIn, Succeeded, Missed, Answered.fault?, Answered.isNotFound, Fault.ofCache,
    Fault.isNotFound]

theorem exists_decided_iff (call : StoreCall) (answer : Except StoreError call.Value) :
    (∃ value, decided answer = .ok value) ↔ Answered.fault? ⟨.store call, answer⟩ = none := by
  cases answer <;> simp [decided, Except.mapError, Answered.fault?]

theorem StoreError.eq_notFound {e : StoreError} (h : (Fault.ofStore e).isNotFound = true) :
    ∃ k, e = .notFound k := by
  cases e with
  | notFound k => exact ⟨k, rfl⟩
  | persistence message | timeout => cases h

theorem exists_notFound_of_decided (call : StoreCall) (answer : Except StoreError call.Value)
    (h : ∃ fault, decided answer = .error fault ∧ fault.isNotFound = true) :
    ∃ k, answer = .error (.notFound k) := by
  obtain ⟨fault, hfault, hmissing⟩ := h
  rcases answer with e | value
  · cases hfault
    obtain ⟨k, rfl⟩ := StoreError.eq_notFound hmissing
    exact ⟨k, rfl⟩
  · cases hfault

theorem decided_isNotFound_iff (call : StoreCall) (answer : Except StoreError call.Value) :
    (∃ fault, decided answer = .error fault ∧ fault.isNotFound = true) ↔
      Answered.isNotFound ⟨.store call, answer⟩ = true := by
  cases answer <;> simp [decided, Except.mapError, Answered.isNotFound, Answered.fault?]

namespace Operation

variable {operation : Operation} {result : Except Fault operation.Value}

/-- An operation succeeds if and only if the backends answer what it takes. -/
theorem Course.granted_iff (h : operation.Course made result) :
    (∃ value, result = .ok value) ↔ operation.Granted made := by
  -- where the answer of the store is passed on, the result is a success just if the answer is
  cases h with
  | hit id text => simp [Granted, Succeeded, Answered.fault?]
  | lost id miss e => simp [Granted, Succeeded, Answered.fault?]
  | found id miss row taken => simp [Granted, Succeeded, Answered.fault?]
  | list answer =>
    rw [exists_decided_iff .list answer]
    simp [Granted, AllSucceeded]
  | page window answer =>
    rw [exists_decided_iff (.page window) answer]
    simp [Granted, AllSucceeded]
  | created draft id taken => simp [Granted, Succeeded, Answered.fault?]
  | notCreated draft e => simp [Granted, Succeeded, Answered.fault?]
  | updateKept id draft message => exact iff_of_false nofun fun h => not_droppedIn id message h.1
  | updated id draft hdropped answer =>
    rw [exists_decided_iff (.update id draft) answer]
    simp [Granted, hdropped.droppedIn, Succeeded]
  | deleteKept id message => exact iff_of_false nofun fun h => not_droppedIn id message h.1
  | deleted id hdropped answer =>
    rw [exists_decided_iff (.delete id) answer]
    simp [Granted, hdropped.droppedIn, Succeeded]
  | allKept e => simp [Granted, AllSucceeded]
  | allDeleted answer =>
    rw [exists_decided_iff .purge answer]
    simp [Granted, AllSucceeded, Answered.fault?]
  | ping answer =>
    rw [exists_decided_iff .ping answer]
    simp [Granted, Succeeded]

/-- It fails for want of the product if and only if they say that it is missing. -/
theorem Course.missing_iff (h : operation.Course made result) :
    (operation.namesProduct = true ∧ ∃ fault, result = .error fault ∧ fault.isNotFound = true) ↔
      operation.Missing made := by
  cases h with
  | hit id text => simp [Missing, Missed, Succeeded]
  | lost id miss e =>
    simp [Missing, Missed, Succeeded, namesProduct, Answered.isNotFound, Answered.fault?]
  | found id miss row taken =>
    simp [Missing, Missed, Answered.isNotFound, Answered.fault?]
  | updateKept id draft message => exact iff_of_false nofun fun h => not_droppedIn id message h.1
  | updated id draft hdropped answer =>
    rw [decided_isNotFound_iff (.update id draft) answer]
    simp [Missing, namesProduct, hdropped.droppedIn, Missed]
  | deleteKept id message => exact iff_of_false nofun fun h => not_droppedIn id message h.1
  | deleted id hdropped answer =>
    rw [decided_isNotFound_iff (.delete id) answer]
    simp [Missing, namesProduct, hdropped.droppedIn, Missed]
  | list answer | page window answer | created draft id taken | notCreated draft e | allKept e
  | allDeleted answer | ping answer => simp [Missing, namesProduct]

end Operation

namespace Http

variable (requestId : String) {request : Request} {operation : Operation} (answers : Answers)

/-- A request that is not refused is played as the operation that it asks for. -/
theorem play_of_asks (h : Asks request operation) :
    (serveLogged requestId request).play answers =
      let played := (operation.program requestId).play answers
      (played.1, request.trim (tell operation played.2)) := by
  have hserve : serveLogged requestId request =
      operation.program requestId >>= fun outcome =>
        Program.note (accessEvent requestId request (request.trim (tell operation outcome))) >>=
          fun _ => pure (request.trim (tell operation outcome)) := by
    rw [serveLogged_eq, h.asked_eq]
    exact Program.bind_assoc (operation.program requestId) _ _
  rw [hserve]
  exact Program.play_bind_of_quiet (operation.program requestId)
    (g := fun outcome => request.trim (tell operation outcome)) (fun _ _ => rfl) answers

/-- A request that asks for nothing makes no call. -/
theorem play_of_not_asks (h : ∀ operation, ¬ Asks request operation) :
    ((serveLogged requestId request).play answers).1 = [] := by
  rw [serveLogged_eq]
  cases hasked : asked request with
  | error refusal => rfl
  | ok operation => exact absurd (asks_of_asked hasked) (h operation)

@[simp] theorem status_trim (response : Response) :
    (request.trim response).status = response.status := by
  unfold Request.trim
  split <;> rfl

@[simp] theorem report_trim (response : Response) :
    (request.trim response).report = response.report := by
  unfold Request.trim
  split <;> rfl

theorem status_answer {α : Type} (status : Nat) (namesProduct : Bool) (render : α → String)
    (outcome : Outcome α) :
    (answer status namesProduct render outcome).status =
      match outcome.result with
      | .ok _ => status
      | .error fault => if namesProduct && fault.isNotFound then 404 else 500 := by
  rcases outcome with failure | served
  · exact apply_ite ApiError.status _ _ _
  · rfl

theorem report_answer {α : Type} (status : Nat) (namesProduct : Bool) (render : α → String)
    (outcome : Outcome α) :
    (answer status namesProduct render outcome).report =
      outcome.report?.map
        (.ofFaults handlerSource (answer status namesProduct render outcome).status) := by
  rcases outcome with failure | served
  · show some (ApiError.ofFaults handlerSource failure.report namesProduct).report =
      some (.ofFaults handlerSource
        (ApiError.ofFaults handlerSource failure.report namesProduct).status failure.report)
    unfold ApiError.ofFaults
    split <;> rfl
  · rfl

/-- The result of an operation decides the status. -/
theorem status_tell (operation : Operation) (outcome : Outcome operation.Value) :
    (tell operation outcome).status = operation.statusOf outcome.result := by
  cases operation with
  | ping => rcases outcome with failure | served <;> rfl
  | fetch id | list | page window | create draft | update id draft | delete id | deleteAll =>
    refine (status_answer ..).trans ?_
    rcases outcome with failure | served <;> rfl

/-- A health check has nothing to warn of. -/
theorem report?_ping :
    (Operation.ping.program requestId).Ensures fun _ outcome =>
      ∀ served, outcome = .ok served → served.report? = none := by
  rintro (e | _)
  · exact nofun
  · rintro _ ⟨⟩
    rfl

theorem report_tell (operation : Operation) :
    let outcome := ((operation.program requestId).play answers).2
    (tell operation outcome).report =
      outcome.report?.map (.ofFaults operation.reportSource (tell operation outcome).status) := by
  intro outcome
  cases operation with
  | ping =>
    have hclean := (report?_ping requestId).play answers
    change ∀ served, outcome = .ok served → served.report? = none at hclean
    rcases outcome with failure | served
    · rfl
    · show none = served.report?.map _
      rw [hclean served rfl]
      rfl
  | fetch id | list | page window | create draft | update id draft | delete id | deleteAll =>
    exact report_answer ..


end Http

/-! ### From the result to the status -/

namespace Operation

variable {operation : Operation} {result : Except Fault operation.Value}

theorem successStatus_bounds (operation : Operation) :
    200 ≤ operation.successStatus ∧ operation.successStatus < 300 := by
  cases operation <;> simp [successStatus]

theorem le_failureStatus (operation : Operation) : 500 ≤ operation.failureStatus := by
  cases operation <;> simp [failureStatus]

theorem statusOf_ok {value : operation.Value} (h : result = .ok value) :
    operation.statusOf result = operation.successStatus := by
  rw [h]
  rfl

theorem statusOf_missing {fault : Fault} (h : result = .error fault)
    (hnames : operation.namesProduct = true) (hfault : fault.isNotFound = true) :
    operation.statusOf result = 404 := by
  rw [h]
  show (if operation.namesProduct && fault.isNotFound then 404 else _) = 404
  rw [hnames, hfault]
  rfl

theorem statusOf_failed {fault : Fault} (h : result = .error fault)
    (hfault : ¬ (operation.namesProduct = true ∧ fault.isNotFound = true)) :
    operation.statusOf result = operation.failureStatus := by
  rw [h]
  exact if_neg fun hboth => hfault (Bool.and_eq_true_iff.1 hboth)

/-- The three ways to end are told apart by their status. -/
theorem Course.status_cases (h : operation.Course made result) :
    (operation.Granted made ∧ ¬ operation.Missing made ∧
        operation.statusOf result = operation.successStatus) ∨
      (¬ operation.Granted made ∧ operation.Missing made ∧ operation.statusOf result = 404) ∨
      (¬ operation.Granted made ∧ ¬ operation.Missing made ∧
        operation.statusOf result = operation.failureStatus) := by
  rw [← h.granted_iff, ← h.missing_iff]
  rcases hresult : result with fault | value
  · by_cases hfault : operation.namesProduct = true ∧ fault.isNotFound = true
    · refine Or.inr (Or.inl ⟨nofun, ⟨hfault.1, fault, rfl, hfault.2⟩, ?_⟩)
      exact statusOf_missing rfl hfault.1 hfault.2
    · refine Or.inr (Or.inr ⟨nofun, ?_, statusOf_failed rfl hfault⟩)
      rintro ⟨hnames, _, ⟨⟩, hmissing⟩
      exact hfault ⟨hnames, hmissing⟩
  · refine Or.inl ⟨⟨value, rfl⟩, ?_, rfl⟩
    rintro ⟨-, _, ⟨⟩, -⟩

/-- A missing product is what the store told at the last call. -/
theorem Course.exists_last_of_missing (h : operation.Course made result)
    (hmissing : operation.Missing made) :
    ∃ call k, made.getLast? = some ⟨.store call, .error (.notFound k)⟩ := by
  obtain ⟨hnames, hfault⟩ := h.missing_iff.2 hmissing
  cases h with
  | lost id miss e =>
    obtain ⟨_, ⟨⟩, hfault⟩ := hfault
    obtain ⟨k, rfl⟩ := StoreError.eq_notFound hfault
    exact ⟨.find id, k, rfl⟩
  | updated id draft hdropped answer =>
    obtain ⟨k, rfl⟩ := exists_notFound_of_decided (.update id draft) answer hfault
    exact ⟨.update id draft, k, rfl⟩
  | deleted id hdropped answer =>
    obtain ⟨k, rfl⟩ := exists_notFound_of_decided (.delete id) answer hfault
    exact ⟨.delete id, k, rfl⟩
  | hit | found | updateKept | deleteKept => obtain ⟨_, ⟨⟩, ⟨⟩⟩ := hfault
  | list | page | created | notCreated | allKept | allDeleted | ping => cases hnames

end Operation

namespace Http

variable {request : Request} {operation : Operation}

/-- A request takes a course of its operation, and the result decides the status. -/
theorem status_serveLogged (requestId : String) (h : Asks request operation) (answers : Answers) :
    let played := (serveLogged requestId request).play answers
    let result := ((operation.program requestId).play answers).2.result
    operation.Course played.1 result ∧ played.2.status = operation.statusOf result := by
  intro played result
  have hplayed : played = _ := play_of_asks requestId answers h
  constructor
  · rw [hplayed]
    exact (operation.runs requestId).play answers
  · rw [hplayed, status_trim, status_tell]

theorem report_serveLogged (requestId : String) (h : Asks request operation) (answers : Answers) :
    let response := ((serveLogged requestId request).play answers).2
    let outcome := ((operation.program requestId).play answers).2
    response.report =
      outcome.report?.map (.ofFaults operation.reportSource response.status) := by
  intro response outcome
  have hresponse : response = request.trim (tell operation outcome) :=
    congrArg Prod.snd (play_of_asks requestId answers h)
  rw [hresponse, report_trim, status_trim]
  exact report_tell requestId answers operation

/-- **The status of a response says how the backends answered.** A request that is not refused
takes one of the courses of its operation. It succeeds exactly if the operation is granted; its
client is told that a product is missing exactly if the store missed it, which the store then said
at the last call; and in all other cases the operation failed. A report goes along exactly if there
were any faults: it bears the status of the response and tells all of them in order. -/
theorem status_eq_iff (requestId : String) (h : Asks request operation) (answers : Answers) :
    let made := ((serveLogged requestId request).play answers).1
    let response := ((serveLogged requestId request).play answers).2
    let outcome := ((operation.program requestId).play answers).2
    operation.Course made outcome.result ∧
      (response.status = operation.successStatus ↔ operation.Granted made) ∧
      (response.status = 404 ↔ operation.Missing made) ∧
      (¬ operation.Granted made → ¬ operation.Missing made →
        response.status = operation.failureStatus) ∧
      (response.status = 404 →
        ∃ call k, made.getLast? = some ⟨.store call, .error (.notFound k)⟩) ∧
      (response.report = none ↔ outcome.faults = []) ∧
      ∀ report, response.report = some report →
        report.status = response.status ∧
          report.messages = outcome.faults.map Fault.message := by
  intro made response outcome
  obtain ⟨hcourse, hstatus⟩ := status_serveLogged requestId h answers
  change operation.Course made outcome.result at hcourse
  change response.status = operation.statusOf outcome.result at hstatus
  have hreport : response.report =
      outcome.report?.map (.ofFaults operation.reportSource response.status) :=
    report_serveLogged requestId h answers
  have hsuccess := operation.successStatus_bounds
  have hfailure := operation.le_failureStatus
  have hgranted : response.status = operation.successStatus ↔ operation.Granted made := by
    rcases hcourse.status_cases with ⟨hg, -, hs⟩ | ⟨hg, -, hs⟩ | ⟨hg, -, hs⟩
    · exact iff_of_true (hstatus.trans hs) hg
    · exact iff_of_false (by omega) hg
    · exact iff_of_false (by omega) hg
  have hmissing : response.status = 404 ↔ operation.Missing made := by
    rcases hcourse.status_cases with ⟨-, hm, hs⟩ | ⟨-, hm, hs⟩ | ⟨-, hm, hs⟩
    · exact iff_of_false (by omega) hm
    · exact iff_of_true (hstatus.trans hs) hm
    · exact iff_of_false (by omega) hm
  refine ⟨hcourse, hgranted, hmissing, ?_, ?_, ?_, ?_⟩
  · intro hg hm
    rcases hcourse.status_cases with ⟨hg', -, -⟩ | ⟨-, hm', -⟩ | ⟨-, -, hs⟩
    · exact absurd hg' hg
    · exact absurd hm' hm
    · exact hstatus.trans hs
  · intro h404
    exact hcourse.exists_last_of_missing (hmissing.1 h404)
  · rw [hreport, Option.map_eq_none_iff, Outcome.report?_eq_none_iff]
  · intro report hr
    rw [hreport] at hr
    obtain ⟨faults, hfaults, rfl⟩ := Option.map_eq_some_iff.1 hr
    refine ⟨rfl, ?_⟩
    rw [← Outcome.faults_of_report? hfaults]
    rfl

/-- Neither backend knows the product that is to be deleted. -/
theorem status_eq_iff_delete_unknown :
    let request : Request := { method := "DELETE", target := ⟨"/product/7", none⟩ }
    let answers : Answers := fun
      | _, .cache _ => .error (.notFound 7)
      | _, .store _ => .error (.notFound 7)
    let response := ((serveLogged "a" request).play answers).2
    Asks request (.delete 7) ∧ response.status = 404 ∧
      ∀ report, response.report = some report →
        report.status = 404 ∧
          report.messages = ["product not found: product 7 not found in cache",
            "product not found: failed to find product 7 in DB"] := by
  intro request answers response
  have hroute : Route.of? "/product/7" = some (.product "7") := by decide
  have hsegment : decodeSegment? "7" = some "7" := by decide
  have hid : readId "7" = .ok 7 := by decide
  have hasks : Asks request (.delete 7) := .delete hroute rfl hsegment hid
  obtain ⟨-, -, hmissing, -, -, -, hreport⟩ := status_eq_iff "a" hasks answers
  have hmade : ((serveLogged "a" request).play answers).1 =
      [⟨.cache (.delete 7), .error (.notFound 7)⟩, ⟨.store (.delete 7), .error (.notFound 7)⟩] :=
    congrArg Prod.fst (play_of_asks "a" answers hasks)
  have h404 : response.status = 404 := by
    refine hmissing.2 ?_
    rw [hmade]
    refine ⟨Or.inr ⟨_, List.mem_cons_self .., rfl, rfl⟩, ?_⟩
    exact ⟨_, List.mem_cons_of_mem _ (List.mem_singleton_self _), rfl, rfl⟩
  refine ⟨hasks, h404, fun report hr => ?_⟩
  obtain ⟨hstatus, hmessages⟩ := hreport report hr
  refine ⟨hstatus.trans h404, hmessages.trans ?_⟩
  decide

end Http

end Catalogue
