import Catalogue.Proofs.Classification

/-!
# The words of the server and its codes

A server that refuses a statement gives words and a code. The code says what happened, and the words
say it to people. The store looks for a cancellation in the words and leaves the code unread: if
none of the codes of a server is passed on, then its calls have the same results and make the same
statements (`Sql.performIn_uncoded`), one call after another (`Sql.turns_uncoded`). So the calls
that time out are told apart from those that fail by the words alone, and rightly just where the
words happen to agree with the code.
-/

namespace Catalogue.Sql

/-- The code that a server gives with a statement that it cancelled. -/
def queryCanceled : String := "57014"

/-- A failure of the driver without the code. -/
def DriverError.uncoded : DriverError → DriverError
  | .database detail _ => .database detail ""
  | e => e

/-- A reply without the code. -/
def Reply.uncoded : Reply → Reply
  | .failure detail _ => .failure detail ""
  | reply => reply

/-- What came of an exchange, without the codes. -/
def Exchange.uncoded {α : Type} (exchange : Exchange α) : Exchange α :=
  ⟨exchange.result.mapError DriverError.uncoded, exchange.statements,
    exchange.replies.map Reply.uncoded⟩

/-- A call over a server that gives no codes. -/
def Turn.uncoded (turn : Turn) : Turn := { turn with replies := turn.replies.map Reply.uncoded }

variable {α β : Type} {call : StoreCall}

/-- What came of a call, without the codes of the replies that it left. -/
def Answered.uncoded (answered : Answered call) : Answered call :=
  { answered with replies := answered.replies.map Reply.uncoded }

/-- What is seen of a call: its result and its statements. -/
def Answered.seen (answered : Answered call) :
    (call : StoreCall) × Except StoreError call.Value × List Statement :=
  ⟨call, answered.result, answered.statements⟩

/-- What is seen of a call over a server. -/
def Turn.seen (turn : Turn) :
    (call : StoreCall) × Except StoreError call.Value × List Statement := turn.answered.seen

/-! ### The code is not read -/

/-- A failure is passed on alike with its code and without. -/
@[simp] theorem toStoreError_uncoded (e : DriverError) :
    e.uncoded.toStoreError = e.toStoreError := by
  have hpool : e.uncoded = .poolTimedOut ↔ e = .poolTimedOut := by
    cases e <;> simp [DriverError.uncoded]
  have hcancelled : e.uncoded.isCancellation = e.isCancellation := by cases e <;> rfl
  have hmessage : e.uncoded.message = e.message := by cases e <;> rfl
  unfold DriverError.toStoreError
  simp only [hpool, hcancelled, hmessage]

@[simp] theorem toStoreErrorOf_uncoded (id : Int64) (e : DriverError) :
    e.uncoded.toStoreErrorOf id = e.toStoreErrorOf id := by
  have hrow : e.uncoded = .rowNotFound ↔ e = .rowNotFound := by
    cases e <;> simp [DriverError.uncoded]
  unfold DriverError.toStoreErrorOf
  simp only [hrow, toStoreError_uncoded]

@[simp] theorem table_uncoded (reply : Reply) :
    reply.uncoded.table = reply.table.mapError DriverError.uncoded := by
  cases reply <;> rfl

theorem uncoded_eq_drop_iff {reply : Reply} : reply.uncoded = .drop ↔ reply = .drop := by
  cases reply <;> simp [Reply.uncoded]

@[simp] theorem nextReply_uncoded (replies : List Reply) :
    nextReply (replies.map Reply.uncoded) =
      ((nextReply replies).1.uncoded, (nextReply replies).2.map Reply.uncoded) := by
  cases replies <;> rfl

/-- What is read of an answer has no code. -/
def Codeless (read : Table → Except DriverError β) : Prop :=
  ∀ table e, read table = .error e → e.uncoded = e

theorem DriverError.Unreadable.uncoded_eq {e : DriverError} (h : e.Unreadable) :
    e.uncoded = e := by
  cases h <;> rfl

theorem uncoded_of_read {e : DriverError} {table : Table}
    (h : (e = .rowNotFound ∧ table.rows = []) ∨ e.Unreadable) : e.uncoded = e := by
  rcases h with ⟨rfl, -⟩ | h
  · rfl
  · exact h.uncoded_eq

theorem codeless_product : Codeless Table.product := fun _ _ h => uncoded_of_read (product_cases h)

theorem codeless_integer : Codeless Table.integer := fun _ _ h => uncoded_of_read (integer_cases h)

theorem codeless_products : Codeless Table.products := fun _ _ h =>
  (onlyUnreadable_products _ h).uncoded_eq

theorem codeless_ignore : Codeless Exchange.ignore := fun _ _ => nofun

theorem bind_uncoded {read : Table → Except DriverError β} (h : Codeless read) (reply : Reply) :
    reply.uncoded.table.bind read = (reply.table.bind read).mapError DriverError.uncoded := by
  cases reply with
  | rows table =>
    show read table = (read table).mapError DriverError.uncoded
    cases hread : read table with
    | ok value => rfl
    | error e => exact congrArg Except.error (h table e hread).symm
  | failure | drop => rfl

theorem single_uncoded {read : Table → Except DriverError α} (h : Codeless read)
    (statement : Statement) (replies : List Reply) :
    Exchange.single statement read (replies.map Reply.uncoded) =
      (Exchange.single statement read replies).uncoded := by
  unfold Exchange.single
  rw [nextReply_uncoded]
  dsimp only
  rw [bind_uncoded h]
  rfl

theorem within_uncoded {read : Table → Except DriverError β}
    {next : β → List Reply → Exchange α} (h : Codeless read)
    (hnext : ∀ value later, next value (later.map Reply.uncoded) = (next value later).uncoded)
    (statement : Statement) (replies : List Reply) :
    Exchange.within statement read next (replies.map Reply.uncoded) =
      (Exchange.within statement read next replies).uncoded := by
  unfold Exchange.within
  rw [nextReply_uncoded]
  dsimp only
  rw [bind_uncoded h]
  cases (nextReply replies).1.table.bind read with
  | ok value =>
    show Exchange.mk (next value _).result _ _ = _
    rw [hnext]
    rfl
  | error e =>
    -- whether a `ROLLBACK` follows depends on the connection, of which the code says nothing
    have hdrop : (nextReply replies).1.uncoded = .drop ↔ (nextReply replies).1 = .drop :=
      uncoded_eq_drop_iff
    show (if _ then _ else _) = Exchange.uncoded (if _ then _ else _)
    simp only [hdrop]
    split
    · rfl
    · rw [nextReply_uncoded]
      rfl

theorem transaction_uncoded {body : List Reply → Exchange α}
    (h : ∀ later, body (later.map Reply.uncoded) = (body later).uncoded) (replies : List Reply) :
    Exchange.transaction body (replies.map Reply.uncoded) =
      (Exchange.transaction body replies).uncoded := by
  unfold Exchange.transaction
  rw [nextReply_uncoded]
  dsimp only
  rw [table_uncoded]
  cases (nextReply replies).1.table with
  | ok table =>
    show Exchange.mk (body _).result _ _ = _
    rw [h]
    rfl
  | error e => rfl

theorem purge_uncoded (replies : List Reply) :
    Exchange.purge (replies.map Reply.uncoded) = (Exchange.purge replies).uncoded := by
  refine transaction_uncoded (fun later => ?_) replies
  refine within_uncoded codeless_ignore (fun _ later => ?_) _ later
  refine within_uncoded codeless_integer (fun count later => ?_) _ later
  refine within_uncoded codeless_ignore (fun _ later => ?_) _ later
  refine within_uncoded codeless_ignore (fun _ later => ?_) _ later
  rfl

theorem answer_uncoded {exchange exchange' : Exchange α} {fail : DriverError → StoreError}
    (h : exchange' = exchange.uncoded) (hfail : ∀ e : DriverError, fail e.uncoded = fail e)
    (value : α → Except StoreError call.Value) :
    exchange'.answer fail value = (exchange.answer fail value).uncoded := by
  subst h
  obtain ⟨result, statements, replies⟩ := exchange
  cases result with
  | ok v => rfl
  | error e =>
    show Answered.mk (.error (fail e.uncoded)) _ _ = _
    rw [hfail]
    rfl

/-- A call does not read the codes of the server. -/
theorem performIn_uncoded (pool : Pool) (call : StoreCall) (replies : List Reply) :
    performIn pool call (replies.map Reply.uncoded) = (performIn pool call replies).uncoded := by
  cases pool with
  | exhausted | closed => rfl
  | ready =>
    cases call with
    | find id | update id draft | delete id =>
      exact answer_uncoded (single_uncoded codeless_product _ replies)
        (toStoreErrorOf_uncoded id) _
    | list | page window =>
      exact answer_uncoded (single_uncoded codeless_products _ replies) toStoreError_uncoded _
    | insert draft =>
      exact answer_uncoded (single_uncoded codeless_integer _ replies) toStoreError_uncoded _
    | ping =>
      exact answer_uncoded (single_uncoded codeless_ignore _ replies) toStoreError_uncoded _
    | purge => exact answer_uncoded (purge_uncoded replies) toStoreError_uncoded _

theorem Turn.answered_uncoded (turn : Turn) : turn.uncoded.answered = turn.answered.uncoded :=
  performIn_uncoded turn.pool turn.call turn.replies

theorem Turn.seen_uncoded (turn : Turn) : turn.uncoded.seen = turn.seen := by
  have hseen : turn.answered.uncoded.seen = turn.answered.seen := rfl
  exact (congrArg (fun answered : Answered turn.call => answered.seen) turn.answered_uncoded).trans
    hseen

/-- Calls that are made one after another do not read the codes either. -/
theorem turns_uncoded (calls : List (Pool × StoreCall)) (replies : List Reply) :
    turns calls (replies.map Reply.uncoded) = (turns calls replies).map Turn.uncoded := by
  induction calls generalizing replies with
  | nil => rfl
  | cons head rest ih =>
    obtain ⟨pool, call⟩ := head
    have hanswered := Turn.answered_uncoded ⟨pool, call, replies⟩
    show Turn.uncoded ⟨pool, call, replies⟩ ::
        turns rest (Turn.uncoded ⟨pool, call, replies⟩).answered.replies = _
    rw [hanswered]
    exact congrArg (_ :: ·) (ih _)

/-- Over servers that differ in nothing but their codes the same is seen. -/
theorem seen_of_uncoded (calls : List (Pool × StoreCall)) {replies replies' : List Reply}
    (h : replies.map Reply.uncoded = replies'.map Reply.uncoded) :
    (turns calls replies).map Turn.seen = (turns calls replies').map Turn.seen := by
  have hseen : ∀ replies, (turns calls replies).map Turn.seen =
      (turns calls (replies.map Reply.uncoded)).map Turn.seen := by
    intro replies
    rw [turns_uncoded, List.map_map]
    exact List.map_congr_left fun turn _ => turn.seen_uncoded.symm
  rw [hseen replies, h, ← hseen replies']

/-! ### The words decide -/

/-- A statement that the server refuses decides about its call if nothing goes wrong before. -/
theorem Turn.flaw?_of_refused {turn : Turn} {front back : List Said} {said : Said}
    {detail code : String} (hblock : turn.block = front ++ said :: back)
    (hfront : ∀ earlier ∈ front, earlier.flaw? turn.call = none)
    (hreply : said.reply = .failure detail code) :
    turn.flaw? = some (.database detail code) := by
  have hready : turn.pool = .ready := Turn.ready_of_block (by simp [hblock])
  rw [Turn.flaw?_of_ready hready, List.findSome?_eq_some_iff]
  exact ⟨front, said, back, hblock, Said.flaw?_database_iff.2 hreply, hfront⟩

/-- **The words of the server decide about timeouts.** Where the first statement of a call with
which anything goes wrong is refused by the server:
* the call times out if the words say that the statement was cancelled on request, and it fails with
  the words in all other cases; the fault that is made of it tells the same;
* so the call times out just for a statement that the server cancelled if the words say so just for
  a statement that it cancelled;
* the code has no say: over servers that differ in nothing but their codes, all calls have the same
  results and make the same statements. -/
theorem words_decide_about_timeouts {turn : Turn} {front back : List Said} {said : Said}
    {detail code : String} (hblock : turn.block = front ++ said :: back)
    (hfront : ∀ earlier ∈ front, earlier.flaw? turn.call = none)
    (hreply : said.reply = .failure detail code) :
    (DriverError.cancellation <:+: detail.toList → turn.answered.result = .error .timeout) ∧
    (¬ DriverError.cancellation <:+: detail.toList →
      turn.answered.result = .error (.persistence ("error returned from database: " ++ detail))) ∧
    (∀ failure, turn.answered.result = .error failure →
      Fault.ofStore failure = .store failure.message ∧
        (failure = .timeout → failure.message = "database call exceeded its deadline")) ∧
    ((turn.answered.result = .error .timeout ↔ code = queryCanceled) ↔
      (DriverError.cancellation <:+: detail.toList ↔ code = queryCanceled)) ∧
    ∀ calls replies replies', replies.map Reply.uncoded = replies'.map Reply.uncoded →
      (turns calls replies).map Turn.seen = (turns calls replies').map Turn.seen := by
  have hflaw := Turn.flaw?_of_refused hblock hfront hreply
  have hcancelled : DriverError.cancellation <:+: detail.toList →
      turn.answered.result = .error .timeout := fun hin =>
    Turn.error_of_classified hflaw (.cancelled hin)
  have hother : ¬ DriverError.cancellation <:+: detail.toList →
      turn.answered.result = .error (.persistence (DriverError.database detail code).message) := by
    intro hout
    refine Turn.error_of_classified hflaw (.other nofun nofun ?_)
    rintro _ _ ⟨⟩
    exact hout
  have htimeout : turn.answered.result = .error .timeout ↔
      DriverError.cancellation <:+: detail.toList := by
    refine ⟨fun hresult => ?_, hcancelled⟩
    by_contra hout
    rw [hother hout] at hresult
    cases hresult
  refine ⟨hcancelled, hother, fun failure hresult => ⟨?_, ?_⟩, by rw [htimeout],
    fun calls replies replies' => seen_of_uncoded calls⟩
  · by_cases hin : DriverError.cancellation <:+: detail.toList
    · rw [hcancelled hin, Except.error.injEq] at hresult
      rw [← hresult]
      rfl
    · rw [hother hin, Except.error.injEq] at hresult
      rw [← hresult]
      rfl
  · rintro rfl
    rfl

/-- A statement that the server cancels for another reason fails, in the middle of a purge. -/
theorem words_decide_about_timeouts_lock :
    let words := "canceling statement due to lock timeout"
    let turn : Turn := ⟨.ready, .purge, [.rows {}, .failure words "55P03"]⟩
    turn.block = [⟨.begin, .rows {}⟩] ++ ⟨.lock, .failure words "55P03"⟩ ::
        [⟨.rollback, .rows {}⟩] ∧
      Said.flaw? .purge ⟨.begin, .rows {}⟩ = none ∧
      turn.answered.result = .error (.persistence ("error returned from database: " ++ words)) := by
  intro words turn
  have hblock : turn.block = [⟨.begin, .rows {}⟩] ++ ⟨.lock, .failure words "55P03"⟩ ::
      [⟨.rollback, .rows {}⟩] := rfl
  have hfront : Said.flaw? .purge ⟨.begin, .rows {}⟩ = none := rfl
  have hout : ¬ DriverError.cancellation <:+: words.toList := by
    rw [← Text.occursIn_iff]
    decide
  obtain ⟨-, hother, -⟩ := words_decide_about_timeouts hblock
    (fun earlier h => by rw [List.mem_singleton.1 h]; exact hfront) rfl
  exact ⟨hblock, hfront, hother hout⟩

/-- A statement that the server cancelled is told as a failure, and a statement that it refused for
a value that quotes the words is told as cancelled. -/
theorem words_and_codes_disagree :
    let cancelled : Reply :=
      .failure "canceling statement due to statement timeout" queryCanceled
    let quoting : Reply :=
      .failure "invalid input syntax: \"canceling statement due to user request\"" "22P02"
    (performIn .ready .list [cancelled]).result = .error (.persistence
        "error returned from database: canceling statement due to statement timeout") ∧
      (performIn .ready .list [quoting]).result = .error .timeout :=
  ⟨rfl, rfl⟩

end Catalogue.Sql
