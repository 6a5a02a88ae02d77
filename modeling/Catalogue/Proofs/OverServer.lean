import Catalogue.Proofs.Classification
import Catalogue.Proofs.Refusal

/-!
# The server's answers and the status of a response

The store answers with what came of a call over a server, unless the deadline cuts the call off
(`Http.answersOver`). A request about one product makes at most one call of the store, which is
about that product, and its client is told that the product is missing just if that call was
answered so (`Operation.Course.missing_iff_missed`). What it takes for the call to be answered so is
known from the driver (`Sql.Turn.notFound_iff`).
-/

namespace Catalogue

open Sql (AboutOne Classified Statement Turn nextReply)

/-! ### Answers in a play -/

/-- The calls of a play are answered in order. -/
theorem Program.answer_of_play {α : Type} (program : Program α) (answers : Answers) {n : Nat}
    {answered : Answered} (h : (program.play answers).1[n]? = some answered) :
    answered.answer = answers n answered.call := by
  induction program generalizing answers n with
  | done value => cases h
  | log event rest ih => exact ih answers h
  | ask call next ih =>
    cases n with
    | zero =>
      cases h
      rfl
    | succ n => exact ih (answers 0 call) (fun k => answers (k + 1)) h

/-- A call of the store was answered with that the product is missing. -/
theorem missed_iff {α : Type} {program : Program α} {answers : Answers} {call : StoreCall} :
    Missed (program.play answers).1 (.store call) ↔
      ∃ n k, ((program.play answers).1.map Answered.call)[n]? = some (.store call) ∧
        answers n (.store call) = .error (.notFound k) := by
  constructor
  · rintro ⟨⟨called, answer⟩, hmem, hcall, hmissing⟩
    obtain ⟨n, hn⟩ := List.getElem?_of_mem hmem
    change called = .store call at hcall
    subst hcall
    have hanswer : answer = answers n (.store call) := program.answer_of_play answers hn
    rcases answer with e | value
    · obtain ⟨k, rfl⟩ := StoreError.eq_notFound hmissing
      refine ⟨n, k, ?_, hanswer.symm⟩
      rw [List.getElem?_map, hn]
      rfl
    · cases hmissing
  · rintro ⟨n, k, hn, hanswer⟩
    rw [List.getElem?_map] at hn
    obtain ⟨⟨called, answer⟩, hn, hcall⟩ := Option.map_eq_some_iff.1 hn
    change called = .store call at hcall
    subst hcall
    have hsame : answer = answers n (.store call) := program.answer_of_play answers hn
    refine ⟨_, List.mem_of_getElem? hn, rfl, ?_⟩
    rw [hsame, hanswer]
    rfl

/-! ### Operations about one product -/

namespace Operation

/-- The one call of the store that an operation may make. -/
def storeCall : Operation → StoreCall
  | .fetch id => .find id
  | .list => .list
  | .page window => .page window
  | .create draft => .insert draft
  | .update id draft => .update id draft
  | .delete id => .delete id
  | .deleteAll => .purge
  | .ping => .ping

variable {operation : Operation} {made : List Answered} {result : Except Fault operation.Value}
  {call : StoreCall}

theorem Course.eq_storeCall (h : operation.Course made result)
    (hmem : .store call ∈ made.map Answered.call) : call = operation.storeCall := by
  cases h <;> simp_all [storeCall]

/-- An operation fails if a call of the store was answered with that the product is missing. -/
theorem Course.error_of_missed (h : operation.Course made result)
    (hmissed : Missed made (.store call)) :
    ∃ fault, result = .error fault ∧ fault.isNotFound = true := by
  have hlast : ∀ {last : StoreCall} {answer : Except StoreError last.Value},
      Answered.isNotFound ⟨.store last, answer⟩ = true →
      ∃ fault, decided answer = .error fault ∧ fault.isNotFound = true :=
    fun {last answer} => (decided_isNotFound_iff last answer).2
  obtain ⟨answered, hmem, hcall, hmissing⟩ := hmissed
  cases h with
  | hit | updateKept | deleteKept | allKept =>
    rw [List.mem_singleton] at hmem
    subst hmem
    cases hcall
  | list | page | ping =>
    rw [List.mem_singleton] at hmem
    subst hmem
    exact hlast hmissing
  | notCreated draft e =>
    rw [List.mem_singleton] at hmem
    subst hmem
    exact ⟨_, rfl, hmissing⟩
  | lost id miss e =>
    rcases List.mem_pair.1 hmem with rfl | rfl
    · cases hcall
    · exact ⟨_, rfl, hmissing⟩
  | updated | deleted | allDeleted =>
    rcases List.mem_pair.1 hmem with rfl | rfl
    · cases hcall
    · exact hlast hmissing
  | created =>
    rcases List.mem_pair.1 hmem with rfl | rfl
    · cases hmissing
    · cases hcall
  | found =>
    simp only [List.mem_cons, List.not_mem_nil, or_false] at hmem
    rcases hmem with rfl | rfl | rfl
    · cases hcall
    · cases hmissing
    · cases hcall

/-- **The client is told that a product is missing just if a call about one was answered so.** -/
theorem Course.missing_iff_missed (h : operation.Course made result) :
    operation.Missing made ↔
      ∃ call id statement, AboutOne call id statement ∧ Missed made (.store call) := by
  constructor
  · intro hmissing
    cases operation with
    | fetch id => exact ⟨_, _, _, .find id, hmissing.2⟩
    | update id draft => exact ⟨_, _, _, .update id draft, hmissing.2⟩
    | delete id => exact ⟨_, _, _, .delete id, hmissing.2⟩
    | list | page window | create draft | deleteAll | ping => exact hmissing.elim
  · rintro ⟨call, id, statement, habout, hmissed⟩
    rw [← h.missing_iff]
    refine ⟨?_, h.error_of_missed hmissed⟩
    obtain ⟨answered, hmem, hcall, -⟩ := hmissed
    have hmade : .store call ∈ made.map Answered.call := List.mem_map.2 ⟨answered, hmem, hcall⟩
    rw [h.eq_storeCall hmade] at habout
    cases operation with
    | fetch | update | delete => rfl
    | list | page | create | deleteAll | ping => cases habout

/-- A product that the cache knows is not missing. -/
theorem Course.not_hit_of_missing (h : operation.Course made result)
    (hmissing : operation.Missing made) (id : Int64) : ¬ Succeeded made (.cache (.get id)) := by
  rintro ⟨answered, hmem, hcall, hfault⟩
  cases h with
  | hit id text => exact hmissing.1 ⟨_, List.mem_singleton_self _, rfl, rfl⟩
  | lost id' miss e =>
    rcases List.mem_pair.1 hmem with rfl | rfl
    · cases hfault
    · cases hcall
  | found id' miss row taken =>
    simp only [List.mem_cons, List.not_mem_nil, or_false] at hmem
    rcases hmem with rfl | rfl | rfl
    · cases hfault
    · cases hcall
    · cases hcall
  | updateKept | deleteKept =>
    rw [List.mem_singleton] at hmem
    subst hmem
    cases hcall
  | updated | deleted =>
    rcases List.mem_pair.1 hmem with rfl | rfl
    · cases hcall
    · cases hcall
  | list | page | created | notCreated | allKept | allDeleted | ping => exact hmissing.elim

end Operation

/-! ### Requests about one product -/

namespace Http

/-- What the calls of a play meet, if they are calls of the store: a connection or none, and the
replies to their statements. Where there is nothing, the deadline cuts the call off. -/
abbrev Server := Nat → Option (Sql.Pool × List Sql.Reply)

/-- The answers of a store over a server, and of a cache. -/
def answersOver (server : Server)
    (cache : Nat → (call : CacheCall) → Except CacheError call.Value) : Answers
  | n, .cache call => cache n call
  | n, .store call =>
    match server n with
    | some (pool, replies) => (Sql.performIn pool call replies).result
    | none => Call.elapsed (.store call)

/-- **The server has no row for the product**: a call about it was made, and its statement succeeded
without rows. -/
def Rowless (server : Server) (made : List Answered) : Prop :=
  ∃ n call id statement pool replies table,
    (made.map Answered.call)[n]? = some (.store call) ∧ AboutOne call id statement ∧
    server n = some (pool, replies) ∧
    (Turn.mk pool call replies).block = [⟨statement, .rows table⟩] ∧ table.rows = []

variable {server : Server} {cache : Nat → (call : CacheCall) → Except CacheError call.Value}
  {request : Request} {operation : Operation} {segment : String} {refusal : Response}

theorem answersOver_notFound_iff {n : Nat} {call : StoreCall} {k : Int64} :
    answersOver server cache n (.store call) = .error (.notFound k) ↔
      ∃ pool replies statement table, server n = some (pool, replies) ∧ AboutOne call k statement ∧
        (Turn.mk pool call replies).block = [⟨statement, .rows table⟩] ∧ table.rows = [] := by
  cases hserver : server n with
  | none =>
    have hanswer : answersOver server cache n (.store call) = .error .timeout := by
      simp only [answersOver, hserver]
      rfl
    rw [hanswer]
    refine iff_of_false nofun ?_
    rintro ⟨pool, replies, -, -, ⟨⟩, -⟩
  | some met =>
    obtain ⟨pool, replies⟩ := met
    have hanswer : answersOver server cache n (.store call) =
        (Turn.mk pool call replies).answered.result := by
      simp only [answersOver, hserver]
      rfl
    have hiff : (Turn.mk pool call replies).answered.result = .error (.notFound k) ↔ _ :=
      Turn.notFound_iff
    rw [hanswer]
    constructor
    · intro h
      obtain ⟨statement, table, hrest⟩ := hiff.1 h
      exact ⟨pool, replies, statement, table, rfl, hrest⟩
    · rintro ⟨_, _, statement, table, ⟨⟩, hrest⟩
      exact hiff.2 ⟨statement, table, hrest⟩

theorem exists_missed_iff {α : Type} {program : Program α} :
    let made := (program.play (answersOver server cache)).1
    (∃ call id statement, AboutOne call id statement ∧ Missed made (.store call)) ↔
      Rowless server made := by
  intro made
  constructor
  · rintro ⟨call, -, -, -, hmissed⟩
    obtain ⟨n, k, hcall, hanswer⟩ := missed_iff.1 hmissed
    obtain ⟨pool, replies, statement, table, hserver, habout, hblock, hrows⟩ :=
      answersOver_notFound_iff.1 hanswer
    exact ⟨n, call, k, statement, pool, replies, table, hcall, habout, hserver, hblock, hrows⟩
  · rintro ⟨n, call, k, statement, pool, replies, table, hcall, habout, hserver, hblock, hrows⟩
    refine ⟨call, k, statement, habout, missed_iff.2 ⟨n, k, hcall, ?_⟩⟩
    exact answersOver_notFound_iff.2 ⟨pool, replies, statement, table, hserver, habout, hblock,
      hrows⟩

theorem status_eq_404_iff (requestId : String) (h : Asks request operation) (answers : Answers) :
    let played := (serveLogged requestId request).play answers
    played.2.status = 404 ↔ operation.Missing played.1 := by
  intro played
  obtain ⟨hcourse, hstatus⟩ := status_serveLogged requestId h answers
  change played.2.status = _ at hstatus
  have hsuccess := operation.successStatus_bounds
  have hfailure := operation.le_failureStatus
  rcases hcourse.status_cases with ⟨-, hm, hs⟩ | ⟨-, hm, hs⟩ | ⟨-, hm, hs⟩
  · exact iff_of_false (by omega) hm
  · exact iff_of_true (hstatus.trans hs) hm
  · exact iff_of_false (by omega) hm

/-- A request about one product is never refused for want of it. -/
theorem status_of_refused (hroute : Route.of? request.target.path = some (.product segment))
    (h : asked request = .error refusal) : refusal.status ≠ 404 := by
  unfold asked at h
  rw [hroute] at h
  dsimp only at h
  split at h
  · cases h
    exact (by decide : (405 : Nat) ≠ 404)
  · rcases product_refusal_cases h with hinvalid | ⟨-, rfl⟩ | ⟨-, -, rfl⟩
    · rw [hinvalid.status]
      decide
    · exact (by decide : (400 : Nat) ≠ 404)
    · exact (by decide : (413 : Nat) ≠ 404)

/-- The one call of the store is about the product in the path. -/
theorem exists_aboutOne (requestId : String) (answers : Answers)
    (hroute : Route.of? request.target.path = some (.product segment)) {call : StoreCall}
    (hmem : .store call ∈
      ((serveLogged requestId request).play answers).1.map Answered.call) :
    ∃ id statement text, AboutOne call id statement ∧ decodeSegment? segment = some text ∧
      readId text = .ok id := by
  cases hasked : asked request with
  | error refusal =>
    rw [play_of_refused requestId answers hasked] at hmem
    cases hmem
  | ok operation =>
    have hasks := asks_of_asked hasked
    obtain ⟨hcourse, -⟩ := status_serveLogged requestId hasks answers
    rw [hcourse.eq_storeCall hmem]
    cases hasks with
    | @fetch other text id hother _ htext hid =>
      cases hroute.symm.trans hother
      exact ⟨id, _, text, .find id, htext, hid⟩
    | @update other text id draft hother _ htext _ hid _ =>
      cases hroute.symm.trans hother
      exact ⟨id, _, text, .update id draft, htext, hid⟩
    | @delete other text id hother _ htext hid =>
      cases hroute.symm.trans hother
      exact ⟨id, _, text, .delete id, htext, hid⟩
    | list hother | page hother | deleteAll hother | create hother | ping hother =>
      cases hroute.symm.trans hother

theorem status_over_server (requestId : String)
    (hroute : Route.of? request.target.path = some (.product segment)) :
    let played := (serveLogged requestId request).play (answersOver server cache)
    (played.2.status = 404 ↔ Rowless server played.1) ∧
      (played.2.status = 404 → ∀ id, ¬ Succeeded played.1 (.cache (.get id))) := by
  intro played
  cases hasked : asked request with
  | error refusal =>
    have hplayed : played = ([], request.trim refusal) := play_of_refused requestId _ hasked
    have hne : played.2.status ≠ 404 := by
      rw [hplayed, status_trim]
      exact status_of_refused hroute hasked
    refine ⟨iff_of_false hne ?_, fun h => absurd h hne⟩
    rintro ⟨n, call, -, -, -, -, -, hcall, -⟩
    rw [hplayed] at hcall
    cases hcall
  | ok operation =>
    have hasks := asks_of_asked hasked
    obtain ⟨hcourse, -⟩ := status_serveLogged requestId hasks (answersOver server cache)
    have hmissing : played.2.status = 404 ↔ operation.Missing played.1 :=
      status_eq_404_iff requestId hasks _
    constructor
    · rw [hmissing, hcourse.missing_iff_missed]
      exact exists_missed_iff
    · intro h404
      exact hcourse.not_hit_of_missing (hmissing.1 h404)

/-- **The driver's failures, from the statement to the status.**
* Whatever the driver says is passed on as it is classified for the call, also if no reply of the
  server leads to it.
* A call about one product that gets a connection makes one statement, its own, and is answered with
  the next reply.
* A call of the store says that a product is missing just if it is about that product and its
  statement succeeds without rows.
* It times out just if no connection is to be had in time, or the server cancels the first statement
  with which something goes wrong.
* What goes wrong first is what is passed on, so with the driver's words if it is neither of the
  two. If nothing goes wrong the call succeeds, unless a purge is told a negative number of rows.
* A request about one product, over a server that answers as it likes and a cache likewise, is
  answered with status 404 just if the statement of its one call, which is about the product in its
  path, succeeded without rows; and then the cache did not give the text.
-/
theorem failures_classified :
    (∀ call e, (∀ id statement, AboutOne call id statement →
        Classified call e (e.toStoreErrorOf id)) ∧
      ((∀ id statement, ¬ AboutOne call id statement) → Classified call e e.toStoreError)) ∧
    (∀ (turn : Turn) (id : Int64) (statement : Statement), AboutOne turn.call id statement →
      turn.pool = .ready → turn.block = [⟨statement, (nextReply turn.replies).1⟩]) ∧
    (∀ (turn : Turn) (k : Int64), turn.answered.result = .error (.notFound k) ↔
      ∃ statement table, AboutOne turn.call k statement ∧
        turn.block = [⟨statement, .rows table⟩] ∧ table.rows = []) ∧
    (∀ turn : Turn, turn.answered.result = .error .timeout ↔ turn.pool = .exhausted ∨
      ∃ front said back detail code, turn.block = front ++ said :: back ∧
        (∀ earlier ∈ front, earlier.flaw? turn.call = none) ∧
        said.reply = .failure detail code ∧
        Sql.DriverError.cancellation <:+: detail.toList) ∧
    (∀ turn : Turn, turn.Decided) ∧
    ∀ (requestId : String) (server : Server)
      (cache : Nat → (call : CacheCall) → Except CacheError call.Value) (request : Request)
      (segment : String), Route.of? request.target.path = some (.product segment) →
      let played := (serveLogged requestId request).play (answersOver server cache)
      (played.2.status = 404 ↔ Rowless server played.1) ∧
      (played.2.status = 404 → ∀ id, ¬ Succeeded played.1 (.cache (.get id))) ∧
      ∀ call, .store call ∈ played.1.map Answered.call →
        ∃ id statement text, AboutOne call id statement ∧ decodeSegment? segment = some text ∧
          readId text = .ok id := by
  refine ⟨fun call e => ⟨?_, ?_⟩, fun turn id statement => Turn.block_of_aboutOne,
    fun turn k => Turn.notFound_iff, fun turn => Turn.timeout_iff, Turn.decided, ?_⟩
  · intro id statement habout
    exact Sql.classified_toStoreErrorOf habout e
  · intro hnone
    exact Sql.classified_toStoreError fun _ => hnone
  intro requestId server cache request segment hroute played
  obtain ⟨hstatus, hhit⟩ := status_over_server requestId hroute
  exact ⟨hstatus, hhit, fun call => exists_aboutOne requestId _ hroute⟩

/-- The cache does not know the product, and the server has no row for it, neither to be read nor to
be changed or deleted. -/
theorem failures_classified_no_row :
    let request : Request := { method := "GET", target := ⟨"/product/7", none⟩ }
    let server : Server := fun _ => some (.ready, [.rows {}])
    let cache : Nat → (call : CacheCall) → Except CacheError call.Value :=
      fun _ _ => .error (.notFound 7)
    let played := (serveLogged "a" request).play (answersOver server cache)
    let tea : Draft := ⟨"tea", "green"⟩
    Route.of? request.target.path = some (.product "7") ∧
      (∀ call, call = .find 7 ∨ call = .update 7 tea ∨ call = .delete 7 →
        (Turn.mk .ready call [.rows {}]).answered.result = .error (.notFound 7)) ∧
      (Turn.mk .exhausted (.delete 7) []).answered.result = .error .timeout ∧
      played.2.status = 404 ∧ ¬ Succeeded played.1 (.cache (.get 7)) := by
  intro request server cache played tea
  have hroute : Route.of? request.target.path = some (.product "7") := by decide
  obtain ⟨-, hblock, hmissing, htimeout, -, hserved⟩ := failures_classified
  obtain ⟨hstatus, hhit, -⟩ := hserved "a" server cache request "7" hroute
  have hsegment : decodeSegment? "7" = some "7" := by decide
  have hid : readId "7" = .ok 7 := by decide
  have hasks : Asks request (.fetch 7) := .fetch hroute (Or.inl rfl) hsegment hid
  have hmade : played.1.map Answered.call = [.cache (.get 7), .store (.find 7)] :=
    congrArg (fun played => played.1.map Answered.call) (play_of_asks "a" _ hasks)
  have h404 : played.2.status = 404 := by
    refine hstatus.2 ⟨1, .find 7, 7, .find 7, .ready, [.rows {}], {}, ?_, .find 7, rfl, rfl, rfl⟩
    rw [hmade]
    rfl
  have hrowless : ∀ call statement, AboutOne call 7 statement →
      (Turn.mk .ready call [.rows {}]).answered.result = .error (.notFound 7) := by
    intro call statement habout
    exact (hmissing ⟨.ready, call, [.rows {}]⟩ 7).2
      ⟨statement, {}, habout, hblock ⟨.ready, call, [.rows {}]⟩ 7 statement habout rfl, rfl⟩
  refine ⟨hroute, ?_, (htimeout ⟨.exhausted, .delete 7, []⟩).2 (Or.inl rfl), h404, hhit h404 7⟩
  rintro call (rfl | rfl | rfl)
  · exact hrowless _ _ (.find 7)
  · exact hrowless _ _ (.update 7 tea)
  · exact hrowless _ _ (.delete 7)

end Http

end Catalogue
