import Catalogue.Proofs.Transaction
import Mathlib.Data.List.Infix

/-!
# What becomes of the driver's failures

A call of the store fails with what the driver says of the first of its statements that goes wrong,
or of the connection that it did not get (`Sql.Turn.flaw?`). That this decides the result is shown
statement by statement (`Sql.Judged`), so a transaction needs no argument of its own. What the
failure is to the store depends on the call only in one case (`Sql.Classified`): no row means that
the product is missing where the call is about one product, and is a failure like any other
elsewhere.
-/

namespace Catalogue

theorem Text.occursIn_iff {part text : List Char} :
    Text.occursIn part text = true ↔ part <:+: text := by
  induction text with
  | nil => simp [occursIn]
  | cons c rest ih =>
    rw [occursIn, Bool.or_eq_true, ih, List.isPrefixOf_iff_prefix, List.infix_cons_iff]

namespace Sql

/-- The calls that are about one product, each with the identifier and with its statement. -/
inductive AboutOne : StoreCall → Int64 → Statement → Prop
  | find (id : Int64) : AboutOne (.find id) id (.find id)
  | update (id : Int64) (draft : Draft) : AboutOne (.update id draft) id (.update id draft)
  | delete (id : Int64) : AboutOne (.delete id) id (.delete id)

/-- **What a failure of the driver is to the store.** -/
inductive Classified (call : StoreCall) : DriverError → StoreError → Prop
  | missing {id : Int64} {statement : Statement} : AboutOne call id statement →
      Classified call .rowNotFound (.notFound id)
  | unconnected : Classified call .poolTimedOut .timeout
  | cancelled {detail code : String} : DriverError.cancellation <:+: detail.toList →
      Classified call (.database detail code) .timeout
  | other {e : DriverError} :
      (e = .rowNotFound → ∀ id statement, ¬ AboutOne call id statement) → e ≠ .poolTimedOut →
      (∀ detail code, e = .database detail code →
        ¬ DriverError.cancellation <:+: detail.toList) →
      Classified call e (.persistence e.message)

/-- What the driver says of the answer to a statement of a call. Some calls need a row, and all of
what they read has to be there and of the right type. -/
def reading (call : StoreCall) (statement : Statement) (table : Table) : Except DriverError Unit :=
  match call with
  | .find _ | .update _ _ | .delete _ => table.product.map fun _ => ()
  | .list | .page _ => table.products.map fun _ => ()
  | .insert _ => table.integer.map fun _ => ()
  | .purge => if statement = .count then table.integer.map fun _ => () else .ok ()
  | .ping => .ok ()

/-- What goes wrong with a statement of a call, if anything does. -/
def Said.flaw? (call : StoreCall) (said : Said) : Option DriverError :=
  match said.reply.table.bind (reading call said.statement) with
  | .ok _ => none
  | .error e => some e

/-- **What goes wrong with a call**: there is no connection, or else what goes wrong with the first
of its statements with which anything does. -/
def Turn.flaw? (turn : Turn) : Option DriverError :=
  match turn.pool with
  | .exhausted => some .poolTimedOut
  | .closed => some .poolClosed
  | .ready => turn.block.findSome? (Said.flaw? turn.call)

/-- The rows were counted, and their number is negative. -/
def Turn.CountsNegative (turn : Turn) : Prop :=
  turn.call = .purge ∧ ∃ table count, ⟨.count, .rows table⟩ ∈ turn.block ∧
    table.integer = .ok count ∧ count.toInt < 0

/-! ### The classification -/

variable {call : StoreCall} {id : Int64} {statement : Statement} {e : DriverError}
  {failure other : StoreError}

theorem Classified.unique (h : Classified call e failure) (h' : Classified call e other) :
    failure = other := by
  have habout : ∀ {id id' : Int64} {statement statement' : Statement},
      AboutOne call id statement → AboutOne call id' statement' → id = id' := by
    rintro id id' statement statement' (id | ⟨id, draft⟩ | id) (id | ⟨id, draft⟩ | id)
    · rfl
    · rfl
    · rfl
  cases h with
  | missing hc =>
    cases h' with
    | missing hc' => rw [habout hc hc']
    | other hrow => exact absurd hc (hrow rfl _ _)
  | unconnected =>
    cases h' with
    | unconnected => rfl
    | other _ hpool => exact absurd rfl hpool
  | cancelled hin =>
    cases h' with
    | cancelled => rfl
    | other _ _ hout => exact absurd hin (hout _ _ rfl)
  | other hrow hpool hout =>
    cases h' with
    | missing hc => exact absurd hc (hrow rfl _ _)
    | unconnected => exact absurd rfl hpool
    | cancelled hin => exact absurd hin (hout _ _ rfl)
    | other => rfl

/-- A failure that is no missing row is classified alike for all calls. -/
theorem classified_toStoreError
    (h : e = .rowNotFound → ∀ id statement, ¬ AboutOne call id statement) :
    Classified call e e.toStoreError := by
  unfold DriverError.toStoreError
  split_ifs with htimeout
  · rcases htimeout with rfl | hcancelled
    · exact .unconnected
    · cases e with
      | database detail code => exact .cancelled (Text.occursIn_iff.1 hcancelled)
      | _ => cases hcancelled
  · rw [not_or] at htimeout
    refine .other h htimeout.1 ?_
    rintro detail code rfl hin
    exact htimeout.2 (Text.occursIn_iff.2 hin)

theorem classified_toStoreErrorOf (h : AboutOne call id statement) (e : DriverError) :
    Classified call e (e.toStoreErrorOf id) := by
  unfold DriverError.toStoreErrorOf
  split_ifs with hrow
  · subst hrow
    exact .missing h
  · exact classified_toStoreError fun hrow' => absurd hrow' hrow

theorem Classified.missing_iff {k : Int64} :
    Classified call e (.notFound k) ↔
      e = .rowNotFound ∧ ∃ statement, AboutOne call k statement := by
  constructor
  · rintro (⟨hc⟩ | _)
    exact ⟨rfl, _, hc⟩
  · rintro ⟨rfl, statement, hc⟩
    exact .missing hc

theorem Classified.timeout_iff :
    Classified call e .timeout ↔ e = .poolTimedOut ∨
      ∃ detail code, e = .database detail code ∧
        DriverError.cancellation <:+: detail.toList := by
  constructor
  · rintro (_ | _ | hin)
    · exact Or.inl rfl
    · exact Or.inr ⟨_, _, rfl, hin⟩
  · rintro (rfl | ⟨detail, code, rfl, hin⟩)
    · exact .unconnected
    · exact .cancelled hin

/-! ### What the driver says of answers -/

/-- Failures that are about an answer which could not be read. -/
inductive DriverError.Unreadable : DriverError → Prop
  | column (column : ColumnRef) (flaw : CellFlaw) : Unreadable (.columnDecode column flaw)
  | name (name : String) : Unreadable (.columnNotFound name)
  | place (length index : Nat) : Unreadable (.columnOutOfBounds length index)

/-- Nothing goes wrong but that an answer cannot be read. -/
def OnlyUnreadable {α : Type} (read : Except DriverError α) : Prop :=
  ∀ e, read = .error e → e.Unreadable

section Reading

variable {α β : Type} {convert : Cell → Except CellFlaw α} {row : List Cell}
  {columns : List String} {table : Table}

theorem OnlyUnreadable.bind {read : Except DriverError α} {next : α → Except DriverError β}
    (h : OnlyUnreadable read) (hnext : ∀ a, OnlyUnreadable (next a)) :
    OnlyUnreadable (read >>= next) := by
  intro e he
  cases read with
  | error flaw =>
    cases he
    exact h e rfl
  | ok a => exact hnext a e he

theorem onlyUnreadable_ok (a : α) : OnlyUnreadable (.ok a) := nofun

theorem onlyUnreadable_readAt (column : ColumnRef) (index : Nat) :
    OnlyUnreadable (Cell.readAt convert column index row) := by
  intro e h
  unfold Cell.readAt at h
  split at h
  · cases h
    exact .place _ _
  · split at h
    · cases h
    · cases h
      exact .column _ _

theorem onlyUnreadable_readNamed (name : String) :
    OnlyUnreadable (readNamed convert columns row name) := by
  unfold readNamed
  split
  · rintro e ⟨⟩
    exact .name _
  · exact onlyUnreadable_readAt _ _

theorem onlyUnreadable_readProduct : OnlyUnreadable (readProduct columns row) := by
  refine (onlyUnreadable_readNamed _).bind fun id => ?_
  refine (onlyUnreadable_readNamed _).bind fun name => ?_
  refine (onlyUnreadable_readNamed _).bind fun info => ?_
  exact onlyUnreadable_ok _

theorem onlyUnreadable_products : OnlyUnreadable table.products := by
  unfold Table.products
  generalize table.rows = rows
  induction rows with
  | nil => exact onlyUnreadable_ok _
  | cons row rest ih =>
    rw [List.mapM_cons]
    refine onlyUnreadable_readProduct.bind fun product => ih.bind fun products => ?_
    exact onlyUnreadable_ok _

/-- A row that is needed is missing only from an answer without rows. -/
theorem product_cases (h : table.product = .error e) :
    (e = .rowNotFound ∧ table.rows = []) ∨ e.Unreadable := by
  unfold Table.product at h
  split at h
  · rename_i hrows
    cases h
    exact Or.inl ⟨rfl, hrows⟩
  · exact Or.inr (onlyUnreadable_readProduct _ h)

theorem integer_cases (h : table.integer = .error e) :
    (e = .rowNotFound ∧ table.rows = []) ∨ e.Unreadable := by
  unfold Table.integer at h
  split at h
  · rename_i hrows
    cases h
    exact Or.inl ⟨rfl, hrows⟩
  · exact Or.inr (onlyUnreadable_readAt _ _ _ h)

/-- Whatever a call reads, it goes without a row that it needs, or the answer cannot be read. -/
theorem reading_cases (h : reading call statement table = .error e) :
    (e = .rowNotFound ∧ table.rows = []) ∨ e.Unreadable := by
  have hmap : ∀ {α : Type} {read : Except DriverError α},
      read.map (fun _ => ()) = .error e → read = .error e := by
    intro α read hread
    cases read with
    | error flaw =>
      cases hread
      rfl
    | ok value => cases hread
  cases call with
  | find | update | delete => exact product_cases (hmap h)
  | list | page => exact Or.inr (onlyUnreadable_products _ (hmap h))
  | insert => exact integer_cases (hmap h)
  | purge =>
    unfold reading at h
    split_ifs at h
    exact integer_cases (hmap h)
  | ping => cases h

end Reading

/-! ### What goes wrong with a statement -/

variable {said : Said} {detail code : String}

theorem Said.flaw?_eq_some_iff :
    said.flaw? call = some e ↔ said.reply.table.bind (reading call said.statement) = .error e := by
  unfold flaw?
  split <;> simp_all

/-- The server refuses the statement, the connection ends, a row is missing, or the answer cannot be
read. -/
theorem Said.flaw_cases (h : said.flaw? call = some e) :
    (∃ detail code, said.reply = .failure detail code ∧ e = .database detail code) ∨
      (said.reply = .drop ∧ ∃ detail, e = .io detail) ∨
      (∃ table, said.reply = .rows table ∧ table.rows = [] ∧ e = .rowNotFound) ∨
      e.Unreadable := by
  rw [Said.flaw?_eq_some_iff] at h
  cases hreply : said.reply with
  | failure detail code =>
    rw [hreply] at h
    cases h
    exact Or.inl ⟨detail, code, rfl, rfl⟩
  | drop =>
    rw [hreply] at h
    cases h
    exact Or.inr (Or.inl ⟨rfl, _, rfl⟩)
  | rows table =>
    rw [hreply] at h
    change reading call said.statement table = .error e at h
    rcases reading_cases h with ⟨he, hrows⟩ | he
    · exact Or.inr (Or.inr (Or.inl ⟨table, rfl, hrows, he⟩))
    · exact Or.inr (Or.inr (Or.inr he))

/-- The words of the server are passed on just if it refuses the statement. -/
theorem Said.flaw?_database_iff :
    said.flaw? call = some (.database detail code) ↔ said.reply = .failure detail code := by
  constructor
  · intro h
    rcases Said.flaw_cases h with ⟨_, _, hreply, ⟨⟩⟩ | ⟨-, _, ⟨⟩⟩ | ⟨_, -, -, ⟨⟩⟩ | hread
    · exact hreply
    · cases hread
  · intro h
    rw [Said.flaw?_eq_some_iff, h]
    rfl

theorem Said.flaw?_ne_poolTimedOut : said.flaw? call ≠ some .poolTimedOut := by
  intro h
  rcases Said.flaw_cases h with ⟨_, _, -, ⟨⟩⟩ | ⟨-, _, ⟨⟩⟩ | ⟨_, -, -, ⟨⟩⟩ | hread
  cases hread

/-- A call about one product goes without its row just if there are no rows in the answer. -/
theorem Said.flaw?_rowNotFound_iff (h : AboutOne call id statement) :
    said.flaw? call = some .rowNotFound ↔ ∃ table, said.reply = .rows table ∧ table.rows = [] := by
  constructor
  · intro hflaw
    rcases Said.flaw_cases hflaw with ⟨_, _, -, ⟨⟩⟩ | ⟨-, _, ⟨⟩⟩ | ⟨table, hreply, hrows, -⟩ | hread
    · exact ⟨table, hreply, hrows⟩
    · cases hread
  · rintro ⟨table, hreply, hrows⟩
    have hproduct : table.product = .error .rowNotFound := by
      unfold Table.product
      rw [hrows]
    rw [Said.flaw?_eq_some_iff, hreply]
    show reading call said.statement table = .error .rowNotFound
    cases h with
    | find | update | delete =>
      unfold reading
      rw [hproduct]
      rfl

/-! ### The first statement that goes wrong decides -/

section Exchange

variable {α β : Type} {exchange : Exchange α} {replies : List Reply}
  {read : Table → Except DriverError β}

/-- **An exchange is judged** by the first of its statements with which something goes wrong. -/
def Judged (call : StoreCall) (exchange : Exchange α) (replies : List Reply) : Prop :=
  ∀ e, exchange.result = .error e ↔
    (heard exchange.statements replies).findSome? (Said.flaw? call) = some e

/-- The answer to a statement is read as the call needs it. -/
def ReadsFor (call : StoreCall) (statement : Statement) (read : Table → Except DriverError β) :
    Prop :=
  ∀ table, (read table).map (fun _ => ()) = reading call statement table

theorem ReadsFor.flaw? (h : ReadsFor call statement read) (reply : Reply) :
    Said.flaw? call ⟨statement, reply⟩ =
      match reply.table.bind read with
      | .ok _ => none
      | .error e => some e := by
  unfold Said.flaw?
  cases htable : reply.table with
  | error flaw => rfl
  | ok table =>
    show (match reading call statement table with | .ok _ => none | .error e => some e) =
      match read table with | .ok _ => none | .error e => some e
    rw [← h table]
    cases read table <;> rfl

theorem judged_single {read : Table → Except DriverError α} (h : ReadsFor call statement read)
    (replies : List Reply) : Judged call (Exchange.single statement read replies) replies := by
  intro e
  have hflaw := h.flaw? (nextReply replies).1
  show (nextReply replies).1.table.bind read = .error e ↔
    [Said.mk statement (nextReply replies).1].findSome? (Said.flaw? call) = some e
  rw [List.findSome?_singleton, hflaw]
  cases (nextReply replies).1.table.bind read <;> simp

theorem judged_done (value : α) (replies : List Reply) :
    Judged call (Exchange.done (.ok value) replies) replies := by
  intro e
  exact iff_of_false nofun nofun

/-- What is sent behind a statement that went wrong has no say. -/
theorem judged_within {next : β → List Reply → Exchange α} (h : ReadsFor call statement read)
    (hnext : ∀ value later, Judged call (next value later) later) (replies : List Reply) :
    Judged call (Exchange.within statement read next replies) replies := by
  intro e
  have hflaw := h.flaw? (nextReply replies).1
  unfold Exchange.within
  cases hvalue : (nextReply replies).1.table.bind read with
  | ok value =>
    rw [hvalue] at hflaw
    simp only [hvalue, heard, List.findSome?_cons, hflaw]
    exact hnext value _ e
  | error flaw =>
    rw [hvalue] at hflaw
    simp only [hvalue]
    -- a `ROLLBACK` stands behind the statement that went wrong, if there is one
    split_ifs
    · simp only [heard, List.findSome?_cons, hflaw, Except.error.injEq, Option.some.injEq]
    · simp only [heard, List.findSome?_cons, hflaw, Except.error.injEq, Option.some.injEq]

theorem judged_transaction {body : List Reply → Exchange α}
    (h : reading call .begin = fun _ => .ok ()) (hbody : ∀ later, Judged call (body later) later)
    (replies : List Reply) : Judged call (Exchange.transaction body replies) replies := by
  intro e
  have hread : ReadsFor call .begin Exchange.ignore := by
    intro table
    rw [h]
    rfl
  have hflaw := hread.flaw? (nextReply replies).1
  unfold Exchange.transaction
  cases htable : (nextReply replies).1.table with
  | ok table =>
    rw [htable] at hflaw
    change Said.flaw? call ⟨.begin, (nextReply replies).1⟩ = none at hflaw
    simp only [htable, heard, List.findSome?_cons, hflaw]
    exact hbody _ e
  | error flaw =>
    rw [htable] at hflaw
    change Said.flaw? call ⟨.begin, (nextReply replies).1⟩ = some flaw at hflaw
    simp only [htable, heard, List.findSome?_cons, hflaw, Except.error.injEq, Option.some.injEq]

theorem judged_purge (replies : List Reply) : Judged .purge (Exchange.purge replies) replies := by
  have hignored : ∀ {statement : Statement}, statement ≠ .count →
      ReadsFor .purge statement Exchange.ignore := by
    intro statement hne table
    unfold reading
    rw [if_neg hne]
    rfl
  have hcount : ReadsFor .purge .count Table.integer := by
    intro table
    unfold reading
    rw [if_pos rfl]
  refine judged_transaction (by rfl) (fun later => ?_) replies
  refine judged_within (hignored (by decide)) (fun _ later => ?_) later
  refine judged_within hcount (fun count later => ?_) later
  refine judged_within (hignored (by decide)) (fun _ later => ?_) later
  refine judged_within (hignored (by decide)) (fun _ later => ?_) later
  exact judged_done count later

end Exchange

/-! ### The result of a call -/

variable {replies : List Reply} {turn : Turn}

/-- What is said of a count that is no number of rows. -/
def badCount : StoreError := .persistence "count exceeds supported range"

/-- **What goes wrong decides the result.** A call with which nothing goes wrong succeeds, unless it
is told a negative number of rows. -/
structure Turn.Decided (turn : Turn) : Prop where
  fails : ∀ e, turn.flaw? = some e →
    ∃ failure, Classified turn.call e failure ∧ turn.answered.result = .error failure
  succeeds : turn.flaw? = none →
    (∃ value, turn.answered.result = .ok value) ∨
      (turn.CountsNegative ∧ turn.answered.result = .error badCount)

theorem decided_of_judged {α : Type} {exchange : Exchange α} {fail : DriverError → StoreError}
    {value : α → Except StoreError call.Value}
    (hperform : perform call replies = exchange.answer fail value)
    (hjudged : Judged call exchange replies) (hfail : ∀ e, Classified call e (fail e))
    (hvalue : ∀ v, exchange.result = .ok v → (∃ w, value v = .ok w) ∨
      ((Turn.mk .ready call replies).CountsNegative ∧ value v = .error badCount)) :
    (Turn.mk .ready call replies).Decided := by
  have hflaw : (Turn.mk .ready call replies).flaw? =
      (heard exchange.statements replies).findSome? (Said.flaw? call) := by
    show (heard (perform call replies).statements replies).findSome? (Said.flaw? call) = _
    rw [hperform]
    rfl
  have hresult : (Turn.mk .ready call replies).answered.result =
      match exchange.result with
      | .ok v => value v
      | .error e => .error (fail e) := by
    show (perform call replies).result = _
    rw [hperform]
    rfl
  constructor
  · intro e he
    rw [hflaw, ← hjudged e] at he
    refine ⟨fail e, hfail e, ?_⟩
    rw [hresult, he]
  · intro hnone
    rw [hflaw] at hnone
    cases hexchange : exchange.result with
    | error e =>
      have hsome := (hjudged e).1 hexchange
      rw [hnone] at hsome
      cases hsome
    | ok v =>
      rw [hresult, hexchange]
      exact hvalue v hexchange

theorem countsNegative_of_purge {count : Int64} (h : (Exchange.purge replies).result = .ok count)
    (hneg : count.toInt < 0) : (Turn.mk .ready .purge replies).CountsNegative := by
  have hbegun : ∃ begun, (nextReply replies).1.table = .ok begun := by
    rw [Exchange.purge_eq] at h
    unfold Exchange.transaction at h
    cases htable : (nextReply replies).1.table with
    | ok begun => exact ⟨begun, rfl⟩
    | error e =>
      simp only [htable] at h
      cases h
  obtain ⟨begun, hbegun⟩ := hbegun
  have hpurge : Exchange.purge replies = ⟨(Exchange.purgeBody (nextReply replies).2).result,
      .begin :: (Exchange.purgeBody (nextReply replies).2).statements,
        (Exchange.purgeBody (nextReply replies).2).replies⟩ := by
    rw [Exchange.purge_eq]
    unfold Exchange.transaction
    simp only [hbegun]
  rw [hpurge] at h
  change (Exchange.purgeBody (nextReply replies).2).result = .ok count at h
  obtain ⟨-, made, behind, hmade, -, hok, herror⟩ :=
    Exchange.purgeBody_follows (nextReply replies).2
  have hall : ∀ said ∈ made, said.Succeeds := by
    by_contra hnot
    obtain ⟨e, he⟩ := herror (by simpa using hnot)
    rw [h] at he
    cases he
  obtain ⟨v, hv, table, hmem, htable⟩ := hok hall
  rw [h, Except.ok.injEq] at hv
  subst hv
  refine ⟨rfl, table, count, ?_, htable, hneg⟩
  show _ ∈ heard (Exchange.purge replies).statements replies
  rw [hpurge]
  show _ ∈ heard (.begin :: (Exchange.purgeBody (nextReply replies).2).statements) replies
  rw [heard, hmade]
  exact List.mem_cons_of_mem _ (List.mem_append_left _ hmem)

theorem toCount_cases (count : Int64) :
    (∃ n, toCount count = .ok n) ∨ (count.toInt < 0 ∧ toCount count = .error badCount) := by
  unfold toCount
  split_ifs with h
  · exact Or.inl ⟨_, rfl⟩
  · exact Or.inr ⟨by omega, rfl⟩

theorem Turn.decided (turn : Turn) : turn.Decided := by
  obtain ⟨pool, call, replies⟩ := turn
  have hplain : (∀ id statement, ¬ AboutOne call id statement) →
      ∀ e : DriverError, Classified call e e.toStoreError :=
    fun h e => classified_toStoreError fun _ => h
  cases pool with
  | exhausted =>
    refine ⟨?_, nofun⟩
    rintro e ⟨⟩
    exact ⟨_, .unconnected, rfl⟩
  | closed =>
    refine ⟨?_, nofun⟩
    rintro e ⟨⟩
    exact ⟨_, classified_toStoreError nofun, rfl⟩
  | ready =>
    cases call with
    | find id =>
      exact decided_of_judged rfl (judged_single (fun _ => rfl) replies)
        (classified_toStoreErrorOf (.find id)) fun v _ => Or.inl ⟨v, rfl⟩
    | update id draft =>
      exact decided_of_judged rfl (judged_single (fun _ => rfl) replies)
        (classified_toStoreErrorOf (.update id draft)) fun v _ => Or.inl ⟨v, rfl⟩
    | delete id =>
      exact decided_of_judged rfl (judged_single (fun _ => rfl) replies)
        (classified_toStoreErrorOf (.delete id)) fun v _ => Or.inl ⟨v, rfl⟩
    | list =>
      exact decided_of_judged rfl (judged_single (fun _ => rfl) replies) (hplain nofun)
        fun v _ => Or.inl ⟨v, rfl⟩
    | page window =>
      exact decided_of_judged rfl (judged_single (fun _ => rfl) replies) (hplain nofun)
        fun v _ => Or.inl ⟨v, rfl⟩
    | insert draft =>
      exact decided_of_judged rfl (judged_single (fun _ => rfl) replies) (hplain nofun)
        fun v _ => Or.inl ⟨v, rfl⟩
    | ping =>
      exact decided_of_judged rfl (judged_single (fun _ => rfl) replies) (hplain nofun)
        fun v _ => Or.inl ⟨v, rfl⟩
    | purge =>
      refine decided_of_judged rfl (judged_purge replies) (hplain nofun) fun count hcount => ?_
      rcases toCount_cases count with hok | ⟨hneg, herror⟩
      · exact Or.inl hok
      · exact Or.inr ⟨countsNegative_of_purge hcount hneg, herror⟩

/-- A call fails in the way in which what went wrong is classified. -/
theorem Turn.flaw_of_error {failure : StoreError} (h : turn.answered.result = .error failure) :
    (∃ e, turn.flaw? = some e ∧ Classified turn.call e failure) ∨
      (turn.flaw? = none ∧ turn.CountsNegative ∧ failure = badCount) := by
  cases hflaw : turn.flaw? with
  | some e =>
    obtain ⟨other, hother, hresult⟩ := turn.decided.fails e hflaw
    rw [h, Except.error.injEq] at hresult
    subst hresult
    exact Or.inl ⟨e, rfl, hother⟩
  | none =>
    rcases turn.decided.succeeds hflaw with ⟨value, hvalue⟩ | ⟨hcounts, hbad⟩
    · rw [h] at hvalue
      cases hvalue
    · rw [h, Except.error.injEq] at hbad
      exact Or.inr ⟨rfl, hcounts, hbad⟩

theorem Turn.error_of_classified {failure : StoreError} (hflaw : turn.flaw? = some e)
    (h : Classified turn.call e failure) : turn.answered.result = .error failure := by
  obtain ⟨other, hother, hresult⟩ := turn.decided.fails e hflaw
  rw [hresult, hother.unique h]

/-- Without a connection nothing is sent. -/
theorem Turn.ready_of_block (h : turn.block ≠ []) : turn.pool = .ready := by
  obtain ⟨pool, call, replies⟩ := turn
  cases pool with
  | ready => rfl
  | exhausted => exact absurd rfl h
  | closed => exact absurd rfl h

theorem Turn.flaw?_of_ready (h : turn.pool = .ready) :
    turn.flaw? = turn.block.findSome? (Said.flaw? turn.call) := by
  unfold flaw?
  rw [h]

/-- What goes wrong other than with the connection goes wrong with a statement. -/
theorem Turn.exists_of_flaw (h : turn.flaw? = some e) :
    (turn.pool = .exhausted ∧ e = .poolTimedOut) ∨ (turn.pool = .closed ∧ e = .poolClosed) ∨
      ∃ front said back, turn.block = front ++ said :: back ∧
        said.flaw? turn.call = some e ∧ ∀ earlier ∈ front, earlier.flaw? turn.call = none := by
  cases hpool : turn.pool with
  | exhausted =>
    unfold flaw? at h
    rw [hpool] at h
    cases h
    exact Or.inl ⟨rfl, rfl⟩
  | closed =>
    unfold flaw? at h
    rw [hpool] at h
    cases h
    exact Or.inr (Or.inl ⟨rfl, rfl⟩)
  | ready =>
    rw [Turn.flaw?_of_ready hpool, List.findSome?_eq_some_iff] at h
    exact Or.inr (Or.inr h)

theorem Turn.block_of_aboutOne (h : AboutOne turn.call id statement) (hpool : turn.pool = .ready) :
    turn.block = [⟨statement, (nextReply turn.replies).1⟩] := by
  obtain ⟨pool, call, replies⟩ := turn
  subst hpool
  cases h with
  | find | update | delete => rfl

/-- **A product is told to be missing just if the statement of the call succeeds without rows.** -/
theorem Turn.notFound_iff {k : Int64} :
    turn.answered.result = .error (.notFound k) ↔
      ∃ statement table, AboutOne turn.call k statement ∧
        turn.block = [⟨statement, .rows table⟩] ∧ table.rows = [] := by
  constructor
  · intro h
    rcases Turn.flaw_of_error h with ⟨e, hflaw, hclassified⟩ | ⟨-, -, ⟨⟩⟩
    obtain ⟨rfl, statement, habout⟩ := Classified.missing_iff.1 hclassified
    rcases Turn.exists_of_flaw hflaw with ⟨-, ⟨⟩⟩ | ⟨-, ⟨⟩⟩ | ⟨front, said, back, hblock, hsaid, -⟩
    have hready : turn.pool = .ready := Turn.ready_of_block (by simp [hblock])
    have hone := Turn.block_of_aboutOne habout hready
    have hmem : said ∈ turn.block := by simp [hblock]
    rw [hone, List.mem_singleton] at hmem
    subst hmem
    obtain ⟨table, hreply, hrows⟩ := (Said.flaw?_rowNotFound_iff habout).1 hsaid
    refine ⟨statement, table, habout, ?_, hrows⟩
    rw [hone]
    exact congrArg (fun reply => [Said.mk statement reply]) hreply
  · rintro ⟨statement, table, habout, hblock, hrows⟩
    have hready : turn.pool = .ready := Turn.ready_of_block (by simp [hblock])
    have hsaid : Said.flaw? turn.call ⟨statement, .rows table⟩ = some .rowNotFound :=
      (Said.flaw?_rowNotFound_iff habout).2 ⟨table, rfl, hrows⟩
    have hflaw : turn.flaw? = some .rowNotFound := by
      rw [Turn.flaw?_of_ready hready, hblock, List.findSome?_singleton, hsaid]
    exact Turn.error_of_classified hflaw (.missing habout)

-- the identifier of an inserted row is no row that the request names
example : (Turn.mk .ready (.insert ⟨"tea", "green"⟩) [.rows {}]).answered.result =
    .error (.persistence DriverError.rowNotFound.message) := by rfl

/-- **A call times out just if it gets no connection in time or the server cancels it.** -/
theorem Turn.timeout_iff :
    turn.answered.result = .error .timeout ↔ turn.pool = .exhausted ∨
      ∃ front said back detail code, turn.block = front ++ said :: back ∧
        (∀ earlier ∈ front, earlier.flaw? turn.call = none) ∧
        said.reply = .failure detail code ∧ DriverError.cancellation <:+: detail.toList := by
  constructor
  · intro h
    rcases Turn.flaw_of_error h with ⟨e, hflaw, hclassified⟩ | ⟨-, -, ⟨⟩⟩
    rcases Turn.exists_of_flaw hflaw with
      ⟨hpool, -⟩ | ⟨-, rfl⟩ | ⟨front, said, back, hblock, hsaid, hfront⟩
    · exact Or.inl hpool
    · rcases Classified.timeout_iff.1 hclassified with ⟨⟨⟩⟩ | ⟨_, _, ⟨⟩, -⟩
    · rcases Classified.timeout_iff.1 hclassified with rfl | ⟨detail, code, rfl, hin⟩
      · exact absurd hsaid Said.flaw?_ne_poolTimedOut
      · exact Or.inr ⟨front, said, back, detail, code, hblock, hfront,
          Said.flaw?_database_iff.1 hsaid, hin⟩
  · rintro (hpool | ⟨front, said, back, detail, code, hblock, hfront, hreply, hin⟩)
    · have hflaw : turn.flaw? = some .poolTimedOut := by
        unfold flaw?
        rw [hpool]
      exact Turn.error_of_classified hflaw .unconnected
    · have hready : turn.pool = .ready := Turn.ready_of_block (by simp [hblock])
      have hsaid : said.flaw? turn.call = some (.database detail code) :=
        Said.flaw?_database_iff.2 hreply
      have hflaw : turn.flaw? = some (.database detail code) := by
        rw [Turn.flaw?_of_ready hready, List.findSome?_eq_some_iff]
        exact ⟨front, said, back, hblock, hsaid, hfront⟩
      exact Turn.error_of_classified hflaw (.cancelled hin)

end Sql

end Catalogue
