import Catalogue.Proofs.Degraded
import Catalogue.Proofs.Play
import Mathlib.Data.List.Basic
import Mathlib.Tactic.Common

/-!
# Every fault is told once

What the calls of an operation answered is a ledger of its faults: `told` reads them off the calls
in the order in which they were made, and leaves out only that a look-up found nothing. An outcome
*settles* the ledger if it carries exactly these faults, in this order, and if a failure was
decided by the last call. Every operation of the service does (`Operation.settles`).
-/

namespace Catalogue

/-- The fault that the answer to a call makes, if the call failed. -/
def Answered.fault? : Answered → Option Fault
  | ⟨.cache _, .error e⟩ => some (.ofCache e)
  | ⟨.store _, .error e⟩ => some (.ofStore e)
  | ⟨.cache _, .ok _⟩ => none
  | ⟨.store _, .ok _⟩ => none

/-- Whether a look-up found nothing. -/
def Answered.isMiss : Answered → Bool
  | ⟨.cache (.get _), .error (.notFound _)⟩ => true
  | _ => false

/-- The faults that calls told, in order. -/
def told (made : List Answered) : List Fault :=
  (made.filter fun answered => !answered.isMiss).filterMap Answered.fault?

theorem told_append (made more : List Answered) : told (made ++ more) = told made ++ told more := by
  simp [told]

/-- Whether it decides an operation or not, a fault is one line of the report's text, in order. -/
theorem FaultReport.toList_text (report : FaultReport) :
    report.text.toList = report.faults.flatMap fun fault => fault.message.toList ++ ['\n'] := by
  unfold text messages
  rw [String.toList_join, List.map_map, List.flatMap_map]
  exact List.flatMap_congr fun fault _ => by simp

/-- The report of an outcome that has any fault. -/
def Outcome.report? {α : Type} : Outcome α → Option FaultReport
  | .ok served => served.report?
  | .error failure => some failure.report

/-- The outcome carries the faults that the calls told, and if it is a failure the last call decided
it. -/
def Settles {α : Type} (made : List Answered) (outcome : Outcome α) : Prop :=
  outcome.faults = told made ∧
    ∀ failure, outcome = .error failure →
      made.getLast?.bind Answered.fault? = some failure.critical

variable {α : Type}

theorem Outcome.faults_of_report? {outcome : Outcome α} {report : FaultReport}
    (h : outcome.report? = some report) : report.faults = outcome.faults := by
  rcases outcome with failure | served
  · cases h
    rfl
  · simp only [Outcome.report?, Served.report?] at h
    split at h
    · cases h
    · cases h
      simp [FaultReport.faults, Outcome.faults]

theorem Outcome.report?_eq_none_iff {outcome : Outcome α} :
    outcome.report? = none ↔ outcome.faults = [] := by
  rcases outcome with failure | served
  · simp [Outcome.report?, Outcome.faults, Failure.report, FaultReport.faults]
  · simp [Outcome.report?, Served.report?, Outcome.faults]

theorem settles_ok {made : List Answered} {warnings : List Fault} (value : α)
    (h : told made = warnings) : Settles made (.ok ⟨value, warnings⟩) :=
  ⟨h.symm, fun _ hf => nomatch hf⟩

/-- A failure at the last call takes along what was told before it. -/
theorem settles_error (made : List Answered) {last : Answered} {fault : Fault}
    {earlier : List Fault} (h : told made = earlier) (hlast : last.fault? = some fault)
    (hmiss : last.isMiss = false) :
    Settles (α := α) (made ++ [last]) (.error ⟨fault, earlier⟩) := by
  constructor
  · rw [told_append, h]
    simp [told, hmiss, hlast, Outcome.faults, Failure.report, FaultReport.faults]
  · rintro _ ⟨⟩
    simp [hlast]

/-! ### The operations, one by one -/

namespace Service

/-- Reading from the store settles whatever ledger it is begun with. -/
theorem fetchFromStore_settles (requestId : String) (id : Int64) (made : List Answered)
    {earlier : List Fault} (h : told made = earlier) :
    (fetchFromStore requestId id earlier).Ensures fun more outcome =>
      Settles (made ++ more) outcome := by
  unfold fetchFromStore
  rw [Program.ensures_store_bind]
  rintro (e | row)
  · exact settles_error made h rfl rfl
  · show (Program.cache (.set row) >>= _).Ensures _
    rw [Program.ensures_cache_bind]
    rintro (e | _)
    · refine settles_ok _ ?_
      rw [told_append, h]
      rfl
    · refine settles_ok _ ?_
      rw [told_append, h]
      exact List.append_nil _

theorem fetch_settles (requestId : String) (id : Int64) :
    (fetch requestId id).Ensures Settles := by
  unfold fetch
  rw [Program.ensures_cache_bind]
  rintro ((missing | message) | text)
  · exact fetchFromStore_settles requestId id [⟨.cache (.get id), .error (.notFound missing)⟩] rfl
  · exact fetchFromStore_settles requestId id [⟨.cache (.get id), .error (.internal message)⟩] rfl
  · exact settles_ok text rfl

theorem list_settles : list.Ensures Settles := by
  unfold list
  rw [Program.ensures_store_bind]
  rintro (e | rows)
  · exact settles_error [] rfl rfl rfl
  · exact settles_ok rows rfl

theorem page_settles (window : Window) : (page window).Ensures Settles := by
  unfold page
  rw [Program.ensures_store_bind]
  rintro (e | rows)
  · exact settles_error [] rfl rfl rfl
  · exact settles_ok rows rfl

theorem create_settles (requestId : String) (draft : Draft) :
    (create requestId draft).Ensures Settles := by
  unfold create
  rw [Program.ensures_store_bind]
  rintro (e | id)
  · exact settles_error [] rfl rfl rfl
  · show (Program.cache (.set (draft.withId id)) >>= _).Ensures _
    rw [Program.ensures_cache_bind]
    rintro (e | _)
    · exact settles_ok id rfl
    · exact settles_ok id rfl

/-- What a change of a row comes to: one call of the store, whose answer is passed on. -/
def PassesOn (change : Program (Except StoreError Product)) : Prop :=
  change.Ensures fun made answer =>
    ∃ last, made = [last] ∧ last.isMiss = false ∧
      last.fault? = match answer with
        | .ok _ => none
        | .error e => some (.ofStore e)

theorem conclude_settles {change : Program (Except StoreError Product)} (h : PassesOn change)
    (made : List Answered) {earlier : List Fault} (hmade : told made = earlier) :
    (conclude earlier change).Ensures fun more outcome => Settles (made ++ more) outcome := by
  unfold conclude
  rw [Program.ensures_bind]
  refine h.mono ?_
  rintro _ (e | previous) ⟨last, rfl, hmiss, hlast⟩
  · exact settles_error made hmade hlast hmiss
  · refine settles_ok previous ?_
    rw [List.append_nil, told_append, hmade]
    simp [told, hmiss, hlast]

theorem replace_settles (id : Int64) {change : Program (Except StoreError Product)}
    (h : PassesOn change) : (replace id change).Ensures Settles := by
  rw [replace_eq, Program.ensures_cache_bind]
  rintro ((missing | message) | _)
  · exact conclude_settles h [⟨.cache (.delete id), .error (.notFound missing)⟩] rfl
  · exact settles_error [] rfl rfl rfl
  · exact conclude_settles h [⟨.cache (.delete id), .ok ()⟩] rfl

theorem update_settles (id : Int64) (draft : Draft) : (update id draft).Ensures Settles :=
  replace_settles id (by rintro (e | previous) <;> exact ⟨_, rfl, rfl, rfl⟩)

theorem delete_settles (id : Int64) : (delete id).Ensures Settles :=
  replace_settles id (by rintro (e | previous) <;> exact ⟨_, rfl, rfl, rfl⟩)

theorem deleteAll_settles (requestId : String) : (deleteAll requestId).Ensures Settles := by
  unfold deleteAll
  rw [Program.ensures_cache_bind]
  rintro (e | _)
  · cases e <;> exact settles_error [] rfl rfl rfl
  · show (Program.store .purge >>= _).Ensures _
    rw [Program.ensures_store_bind]
    rintro (e | count)
    · exact settles_error [⟨.cache .clear, .ok ()⟩] rfl rfl rfl
    · exact settles_ok count rfl

end Service

/-- The operation settles its ledger, whatever its calls are answered. -/
theorem Operation.settles (requestId : String) (operation : Operation) :
    (operation.program requestId).Ensures Settles := by
  cases operation with
  | fetch id => exact Service.fetch_settles requestId id
  | list => exact Service.list_settles
  | page window => exact Service.page_settles window
  | create draft => exact Service.create_settles requestId draft
  | update id draft => exact Service.update_settles id draft
  | delete id => exact Service.delete_settles id
  | deleteAll => exact Service.deleteAll_settles requestId
  | ping =>
    rintro (e | _)
    · exact settles_error [] rfl rfl rfl
    · exact settles_ok () rfl

/-- **No fault is lost, duplicated or reordered.** Whatever its calls are answered, an operation
ends with exactly the faults that they told, and if it fails, then by what its last call told. It
has a report unless nothing was told, and the report lists the same faults, as wordings and as
lines. -/
theorem Operation.faults_of_play (requestId : String) (operation : Operation) (answers : Answers) :
    let made := ((operation.program requestId).play answers).1
    let outcome := ((operation.program requestId).play answers).2
    outcome.faults = told made ∧
      (∀ failure, outcome = .error failure →
        failure.report.critical = some failure.critical ∧
          ∃ before last, made = before ++ [last] ∧ last.fault? = some failure.critical) ∧
      (outcome.report? = none ↔ told made = []) ∧
      ∀ report, outcome.report? = some report →
        report.messages = (told made).map Fault.message ∧
          report.text.toList = (told made).flatMap fun fault => fault.message.toList ++ ['\n'] := by
  intro made outcome
  obtain ⟨hfaults, hlast⟩ := (operation.settles requestId).play answers
  refine ⟨hfaults, fun failure hf => ⟨rfl, ?_⟩, ?_, fun report hr => ?_⟩
  · obtain ⟨last, hl, hfault⟩ := Option.bind_eq_some_iff.1 (hlast failure hf)
    obtain ⟨before, hmade⟩ := List.getLast?_eq_some_iff.1 hl
    exact ⟨before, last, hmade, hfault⟩
  · rw [Outcome.report?_eq_none_iff]
    exact Iff.of_eq (congrArg (· = []) hfaults)
  · have hreport : report.faults = told made := (Outcome.faults_of_report? hr).trans hfaults
    refine ⟨?_, ?_⟩
    · unfold FaultReport.messages
      rw [hreport]
    · rw [FaultReport.toList_text, hreport]

/-- When both backends fail, the fault of the cache comes first. -/
example :
    ((Operation.fetch 1).program "").play (fun
      | _, .cache _ => .error (.internal "no cache")
      | _, .store _ => .error (.persistence "no rows")) =
    ([⟨.cache (.get 1), .error (.internal "no cache")⟩,
      ⟨.store (.find 1), .error (.persistence "no rows")⟩],
      .error ⟨.store "no rows", [.cache "no cache"]⟩) := rfl

end Catalogue
