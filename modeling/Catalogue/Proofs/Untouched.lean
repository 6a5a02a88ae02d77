import Catalogue.Proofs.Backends
import Catalogue.Proofs.Verdict

/-!
# Failed requests leave the rows alone

Only a call of the store that succeeds can have changed a row. Once an operation has made such a
call it can no longer fail: what it does behind it is at most to put a text into the cache, and
that ends in a warning (`Operation.Course.not_stored_of_error`). And a text that could not be
dropped is never left behind a changed row, because the store is not asked at all
(`Operation.Course.not_mem_store`).
-/

namespace Catalogue

/-- Whether a call was one of the store and succeeded. -/
def Answered.Stored : Answered → Prop
  | ⟨.store _, .ok _⟩ => True
  | ⟨.store _, .error _⟩ => False
  | ⟨.cache _, _⟩ => False

/-- Whether a call drops cached texts so that their rows can be changed. -/
def CacheCall.Invalidates : CacheCall → Prop
  | .delete _ | .clear => True
  | .get _ | .set _ => False

/-- **What calls may do to the backends.** Nothing is known of the effect of a call, but that the
rows are changed by the store alone, and not if it fails. -/
inductive Backends.Bears : Backends → List Answered → Backends → Prop
  | nil (s : Backends) : Bears s [] s
  | cons {s mid after : Backends} {answered : Answered} {made : List Answered} :
      (¬ answered.Stored → mid.table = s.table) → Bears mid made after →
        Bears s (answered :: made) after

theorem Backends.Bears.table_eq {s after : Backends} {made : List Answered}
    (h : s.Bears made after) (hmade : ∀ answered ∈ made, ¬ answered.Stored) :
    after.table = s.table := by
  induction h with
  | nil s => rfl
  | cons hcall _ ih =>
    rw [List.forall_mem_cons] at hmade
    exact (ih hmade.2).trans (hcall hmade.1)

theorem Backends.Bears.eq_of_nil {s after : Backends} (h : s.Bears [] after) : after = s := by
  cases h
  rfl

/-- Healthy backends change no row at a call that fails. -/
theorem Backends.table_act (fresh : Int64) (s : Backends) (call : Call)
    (h : ¬ Answered.Stored ⟨call, (s.act fresh call).1⟩) :
    (s.act fresh call).2.table = s.table := by
  cases call with
  | cache call => rfl
  | store call =>
    change ¬ Answered.Stored ⟨.store call, (s.table.answer fresh call).1⟩ at h
    show (s.table.answer fresh call).2 = s.table
    cases hanswer : (s.table.answer fresh call).1 with
    | error e => exact Table.answer_of_error hanswer
    | ok value =>
      rw [hanswer] at h
      exact absurd trivial h

/-! ### Operations -/

theorem not_stored_of_decided (call : StoreCall) {answer : Except StoreError call.Value}
    {fault : Fault} (h : decided answer = .error fault) :
    ¬ Answered.Stored ⟨.store call, answer⟩ := by
  rcases answer with e | value
  · exact id
  · cases h

theorem not_stored_cache (call : CacheCall) (answer : Except CacheError call.Value) :
    ¬ Answered.Stored ⟨.cache call, answer⟩ := id

namespace Operation

variable {operation : Operation} {made : List Answered} {result : Except Fault operation.Value}

/-- An operation that fails has stored nothing. -/
theorem Course.not_stored_of_error (h : operation.Course made result) {fault : Fault}
    (hresult : result = .error fault) : ∀ answered ∈ made, ¬ answered.Stored := by
  cases h with
  | hit id text => cases hresult
  | lost id miss e => simp [Answered.Stored]
  | found id miss row taken => cases hresult
  | list answer => simpa using not_stored_of_decided .list hresult
  | page window answer => simpa using not_stored_of_decided (.page window) hresult
  | created draft id taken => cases hresult
  | notCreated draft e => simp [Answered.Stored]
  | updateKept id draft message => simp [Answered.Stored]
  | updated id draft hdropped answer =>
    simpa [not_stored_cache] using not_stored_of_decided (.update id draft) hresult
  | deleteKept id message => simp [Answered.Stored]
  | deleted id hdropped answer =>
    simpa [not_stored_cache] using not_stored_of_decided (.delete id) hresult
  | allKept e => simp [Answered.Stored]
  | allDeleted answer =>
    simpa [Answered.Stored] using not_stored_of_decided .purge hresult
  | ping answer => simpa using not_stored_of_decided .ping hresult

/-- An operation that could not drop a text asks nothing of the store. -/
theorem Course.not_mem_store (h : operation.Course made result) {call : CacheCall}
    {message : String} (hcall : call.Invalidates)
    (hmem : (⟨.cache call, .error (.internal message)⟩ : Answered) ∈ made) (change : StoreCall)
    (answer : Except StoreError change.Value) : (⟨.store change, answer⟩ : Answered) ∉ made := by
  have hget : ∀ id, call ≠ .get id := by
    rintro id rfl
    exact hcall
  have hset : ∀ product, call ≠ .set product := by
    rintro product rfl
    exact hcall
  cases h with
  | hit id text => simp [hget] at hmem
  | lost id miss e => simp [hget] at hmem
  | found id miss row taken => simp [hget, hset] at hmem
  | list answer => simp at hmem
  | page window answer => simp at hmem
  | created draft id taken => simp [hset] at hmem
  | notCreated draft e => simp at hmem
  | updateKept id draft message => simp
  | updated id draft hdropped answer =>
    rcases List.mem_cons.1 hmem with hhead | htail
    · cases hhead
      exact absurd rfl (hdropped message)
    · cases List.mem_singleton.1 htail
  | deleteKept id message => simp
  | deleted id hdropped answer =>
    rcases List.mem_cons.1 hmem with hhead | htail
    · cases hhead
      exact absurd rfl (hdropped message)
    · cases List.mem_singleton.1 htail
  | allKept e => simp
  | allDeleted answer =>
    rcases List.mem_cons.1 hmem with hhead | htail
    · cases hhead
    · cases List.mem_singleton.1 htail
  | ping answer => simp at hmem

end Operation

namespace Http

/-- Unless the status is that of a success, the rows are as before. -/
theorem table_eq_of_failed (requestId : String) (request : Request) (answers : Answers)
    {s after : Backends} (h : s.Bears ((serveLogged requestId request).play answers).1 after)
    (hfailed : ¬ (200 ≤ ((serveLogged requestId request).play answers).2.status ∧
      ((serveLogged requestId request).play answers).2.status < 300)) :
    after.table = s.table := by
  by_cases hasks : ∃ operation, Asks request operation
  · obtain ⟨operation, hasks⟩ := hasks
    obtain ⟨hcourse, hstatus⟩ := status_serveLogged requestId hasks answers
    rcases hresult : ((operation.program requestId).play answers).2.result with fault | value
    · exact h.table_eq (hcourse.not_stored_of_error hresult)
    · rw [hstatus, Operation.statusOf_ok hresult] at hfailed
      exact absurd operation.successStatus_bounds hfailed
  · rw [play_of_not_asks requestId answers (not_exists.1 hasks)] at h
    exact congrArg Backends.table h.eq_of_nil

/-- **Requests that fail leave the rows alone.** Whatever the backends answer, and whatever the
cache does: unless the status is that of a success, the rows are as before. A request that is
refused makes no call, so it leaves the cache as it is, with its order of use and its counters. And
once a text that is to be dropped could not be dropped, the store is not asked. -/
theorem rows_untouched (requestId : String) (request : Request) (answers : Answers)
    {s after : Backends}
    (h : s.Bears ((serveLogged requestId request).play answers).1 after) :
    let made := ((serveLogged requestId request).play answers).1
    let response := ((serveLogged requestId request).play answers).2
    (¬ (200 ≤ response.status ∧ response.status < 300) → after.table = s.table) ∧
      ((∀ operation, ¬ Asks request operation) → made = [] ∧ after = s) ∧
      ∀ (call : CacheCall) (message : String), call.Invalidates →
        (⟨.cache call, .error (.internal message)⟩ : Answered) ∈ made →
        ∀ (change : StoreCall) (answer : Except StoreError change.Value),
          (⟨.store change, answer⟩ : Answered) ∉ made := by
  intro made response
  refine ⟨table_eq_of_failed requestId request answers h, fun hnone => ?_, ?_⟩
  · have hmade : made = [] := play_of_not_asks requestId answers hnone
    change s.Bears made after at h
    rw [hmade] at h
    exact ⟨hmade, h.eq_of_nil⟩
  · intro call message hcall hmem
    by_cases hasks : ∃ operation, Asks request operation
    · obtain ⟨operation, hasks⟩ := hasks
      obtain ⟨hcourse, -⟩ := status_serveLogged requestId hasks answers
      exact hcourse.not_mem_store hcall hmem
    · have hmade : made = [] := play_of_not_asks requestId answers (not_exists.1 hasks)
      rw [hmade] at hmem
      cases hmem

/-- The store times out once the text was dropped: the row stays, though the cache has changed. -/
theorem rows_untouched_timeout :
    let tea : Product := ⟨1, "tea", "green"⟩
    let table : Table := ⟨[tea], List.pairwise_singleton _ _⟩
    let s : Backends := ⟨table, { capacity := 1, entries := [(1, tea.encode)] }⟩
    let after : Backends := ⟨table, { capacity := 1 }⟩
    let request : Request := { method := "DELETE", target := ⟨"/product/1", none⟩ }
    let answers : Answers := fun
      | _, .cache (.get _) => .error (.notFound 1)
      | _, .cache (.set _) | _, .cache (.delete _) | _, .cache .clear => .ok ()
      | _, .store _ => .error .timeout
    let played := (serveLogged "a" request).play answers
    s.Bears played.1 after ∧ after.cache ≠ s.cache ∧ played.2.status = 500 ∧
      after.table = s.table := by
  intro tea table s after request answers played
  have hroute : Route.of? "/product/1" = some (.product "1") := by decide
  have hsegment : decodeSegment? "1" = some "1" := by decide
  have hid : readId "1" = .ok 1 := by decide
  have hplayed : played = _ := play_of_asks "a" answers (.delete hroute rfl hsegment hid)
  have hmade : played.1 =
      [⟨.cache (.delete 1), .ok ()⟩, ⟨.store (.delete 1), .error .timeout⟩] :=
    congrArg Prod.fst hplayed
  have hstatus : played.2.status = 500 := congrArg (fun played => played.2.status) hplayed
  have hbears : s.Bears played.1 after := by
    have hstore : after.Bears [⟨.store (.delete 1), .error .timeout⟩] after :=
      .cons (fun _ => rfl) (.nil after)
    have hkept : after.table = s.table := rfl
    rw [hmade]
    exact .cons (fun _ => hkept) hstore
  refine ⟨hbears, ?_, hstatus, ?_⟩
  · decide
  · refine (rows_untouched "a" request answers hbears).1 ?_
    change ¬ (200 ≤ played.2.status ∧ played.2.status < 300)
    rw [hstatus]
    decide

end Http

end Catalogue
