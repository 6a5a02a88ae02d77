import Catalogue.Sql.Session
import Mathlib.Data.List.Nodup
import Mathlib.Tactic.Common

/-!
# The transaction of a purge

Calls are made one after another, and the server replies to their statements in order. Every call
is one statement at most, but for the purge: it is a transaction, which goes on as long as its
statements succeed (`Carries`). What a statement of an open transaction leads to is said once
(`Exchange.within_follows`), and the purge is four of them behind a `BEGIN`.

Whether a transaction is open is read off the statements and their replies alone
(`inTransaction`). It turns out to be open exactly behind the first statement of a purge and in
front of whatever ends it, so no other call is ever made inside one
(`purge_in_one_transaction`).
-/

namespace Catalogue.Sql

/-- A statement with the reply that it got. -/
structure Said where
  statement : Statement
  reply : Reply
  deriving DecidableEq

/-- Statements with their replies, where each gets the next one. -/
def heard : List Statement → List Reply → List Said
  | [], _ => []
  | statement :: rest, replies =>
    ⟨statement, (nextReply replies).1⟩ :: heard rest (nextReply replies).2

/-- A call, whether a connection is to be had for it, and the replies that are left for it. -/
structure Turn where
  pool : Pool
  call : StoreCall
  replies : List Reply

namespace Turn

/-- What came of the call. -/
def answered (turn : Turn) : Answered turn.call := performIn turn.pool turn.call turn.replies

/-- The statements of the call, with their replies. -/
def block (turn : Turn) : List Said := heard turn.answered.statements turn.replies

end Turn

/-- Calls that are made one after another. Each leaves the replies that it did not use. -/
def turns : List (Pool × StoreCall) → List Reply → List Turn
  | [], _ => []
  | (pool, call) :: rest, replies =>
    let turn : Turn := ⟨pool, call, replies⟩
    turn :: turns rest turn.answered.replies

/-! ### What is asked of a purge -/

/-- The statements of a purge in which nothing fails. -/
def purgeSteps : List Statement := [.begin, .lock, .count, .truncate, .commit]

namespace Said

/-- The statement was executed, and if it counts rows, their number can be read. -/
def Succeeds (said : Said) : Prop :=
  ∃ table, said.reply = .rows table ∧ (said.statement = .count → ∃ n, table.integer = .ok n)

/-- Whether a transaction is open behind a statement. It ends with its connection at the latest, and
a connection on which it cannot be rolled back is given up. -/
def leavesOpen (isOpen : Bool) (said : Said) : Bool :=
  match said.reply with
  | .drop => false
  | .failure _ _ => isOpen && said.statement != .rollback
  | .rows _ => (isOpen || said.statement == .begin) && said.statement != .commit &&
      said.statement != .rollback

end Said

/-- Whether a transaction is open behind some statements. -/
def inTransaction (log : List Said) : Bool := log.foldl Said.leavesOpen false

/-- A transaction has to be undone: it has begun, it was not committed, and the connection lives. -/
def Dangling (made : List Said) : Prop :=
  (∃ said ∈ made, said.statement = .begin ∧ said.Succeeds) ∧
    (¬ ∃ said ∈ made, said.statement = .commit ∧ said.Succeeds) ∧
      ∀ said ∈ made, said.reply ≠ .drop

/-- **The statements of a purge**: `made` is the front of its steps up to the first that fails, and
`behind` undoes them if that is needed. -/
structure IsPurge (pool : Pool) (made behind : List Said) : Prop where
  steps : made.map Said.statement <+: purgeSteps
  succeeds : ∀ said ∈ made.dropLast, said.Succeeds
  stops : made.map Said.statement = purgeSteps ∨
    (∃ last, made.getLast? = some last ∧ ¬ last.Succeeds) ∨ pool ≠ .ready ∧ made = []
  undone : Dangling made → behind.map Said.statement = [.rollback]
  kept : ¬ Dangling made → behind = []

/-- **What a purge gives**: the number that was counted, if all its steps succeed. -/
structure Tells (made : List Said) (result : Except StoreError Nat) : Prop where
  ok_iff : ∀ n, result = .ok n ↔
    made.map Said.statement = purgeSteps ∧ (∀ said ∈ made, said.Succeeds) ∧
      ∃ table count, ⟨.count, .rows table⟩ ∈ made ∧ table.integer = .ok count ∧
        count.toInt = (n : Int)
  not_committed : (∀ table count, ⟨.count, .rows table⟩ ∈ made → table.integer = .ok count →
      0 ≤ count.toInt) →
    ∀ e, result = .error e → ¬ ∃ said ∈ made, said.statement = .commit ∧ said.Succeeds

/-! ### Replies in order -/

variable {α β : Type} {replies : List Reply}

theorem Reply.table_eq_ok_iff {reply : Reply} {table : Table} :
    reply.table = .ok table ↔ reply = .rows table := by
  cases reply with
  | rows other => simp [Reply.table]
  | failure detail code => exact ⟨nofun, nofun⟩
  | drop => exact ⟨nofun, nofun⟩

theorem nextReply_snd (replies : List Reply) : (nextReply replies).2 = replies.drop 1 := by
  cases replies <;> rfl

theorem heard_append (front back : List Statement) (replies : List Reply) :
    heard (front ++ back) replies =
      heard front replies ++ heard back (replies.drop front.length) := by
  induction front generalizing replies with
  | nil => rfl
  | cons statement rest ih =>
    simp only [List.cons_append, heard, List.length_cons, ih, nextReply_snd, List.drop_drop]
    rw [Nat.add_comm 1]

theorem map_statement_heard (statements : List Statement) (replies : List Reply) :
    (heard statements replies).map Said.statement = statements := by
  induction statements generalizing replies with
  | nil => rfl
  | cons statement rest ih => simp [heard, ih]

/-! ### Statements of an open transaction -/

/-- **What becomes of steps in an open transaction**: the statements that are made of them, and what
is sent behind those. -/
inductive Carries : List Statement → List Said → List Said → Prop
  | done : Carries [] [] []
  | step {said : Said} {steps : List Statement} {made behind : List Said} :
      said.Succeeds → Carries steps made behind →
        Carries (said.statement :: steps) (said :: made) behind
  /-- The statement fails, and the transaction is rolled back. -/
  | abandoned {said : Said} {steps : List Statement} (reply : Reply) :
      ¬ said.Succeeds → said.reply ≠ .drop →
        Carries (said.statement :: steps) [said] [⟨.rollback, reply⟩]
  /-- The connection is gone, and the transaction with it. -/
  | dropped {said : Said} {steps : List Statement} :
      said.reply = .drop → Carries (said.statement :: steps) [said] []

theorem Said.not_succeeds_of_drop {said : Said} (h : said.reply = .drop) : ¬ said.Succeeds := by
  rintro ⟨table, htable, -⟩
  cases h.symm.trans htable

/-- A failure leaves the transaction open, unless it is that of the end of it. -/
theorem Said.leavesOpen_of_not_succeeds {said : Said} (h : ¬ said.Succeeds)
    (hreply : said.reply ≠ .drop) (hne : said.statement ≠ .rollback) :
    Said.leavesOpen true said = true := by
  unfold leavesOpen
  split
  · exact absurd (by assumption) hreply
  · simpa using hne
  · rename_i table htable
    -- only a number that cannot be read is a failure in spite of an answer
    have hcount : said.statement = .count := by
      by_contra hc
      exact h ⟨table, htable, fun hcount => absurd hcount hc⟩
    rw [hcount]
    decide

theorem Said.leavesOpen_rollback (isOpen : Bool) (reply : Reply) :
    Said.leavesOpen isOpen ⟨.rollback, reply⟩ = false := by
  cases reply <;> simp [leavesOpen]

namespace Carries

variable {steps : List Statement} {made behind : List Said}

theorem steps_prefix (h : Carries steps made behind) : made.map Said.statement <+: steps := by
  induction h with
  | done => exact List.prefix_refl _
  | step _ _ ih => simpa using ih
  | abandoned reply _ _ => simp
  | dropped _ => simp

/-- Either all steps are made, and nothing follows, or the last one that is made fails. -/
theorem cases_last (h : Carries steps made behind) :
    (made.map Said.statement = steps ∧ (∀ said ∈ made, said.Succeeds) ∧ behind = []) ∨
      ∃ front last, made = front ++ [last] ∧ (∀ said ∈ front, said.Succeeds) ∧ ¬ last.Succeeds ∧
        (last.reply = .drop → behind = []) ∧
          (last.reply ≠ .drop → behind.map Said.statement = [.rollback]) := by
  induction h with
  | done => exact Or.inl ⟨rfl, nofun, rfl⟩
  | @step said steps made behind hsaid _ ih =>
    rcases ih with ⟨hsteps, hall, hbehind⟩ | ⟨front, last, rfl, hall, hrest⟩
    · exact Or.inl ⟨by rw [List.map_cons, hsteps], List.forall_mem_cons.2 ⟨hsaid, hall⟩, hbehind⟩
    · exact Or.inr ⟨said :: front, last, rfl, List.forall_mem_cons.2 ⟨hsaid, hall⟩, hrest⟩
  | @abandoned said steps reply hsaid hreply =>
    exact Or.inr ⟨[], said, rfl, nofun, hsaid, fun h => absurd h hreply, fun _ => rfl⟩
  | @dropped said steps hreply =>
    exact Or.inr ⟨[], said, rfl, nofun, Said.not_succeeds_of_drop hreply, fun _ => rfl,
      fun h => absurd hreply h⟩

/-- The transaction is open in front of every statement, and closed behind the last one. -/
theorem isOpen (h : Carries steps made behind) {inner : List Statement}
    (hsteps : steps = inner ++ [.commit])
    (hinner : ∀ statement ∈ inner, statement ≠ .commit ∧ statement ≠ .rollback) :
    (∀ front said back, made ++ behind = front ++ said :: back →
      front.foldl Said.leavesOpen true = true) ∧
        (made ++ behind).foldl Said.leavesOpen true = false := by
  induction h generalizing inner with
  | done => simp at hsteps
  | @step said steps made behind hsaid hrest ih =>
    obtain ⟨table, htable, -⟩ := hsaid
    cases inner with
    | nil =>
      obtain ⟨hcommit, rfl⟩ := List.cons_eq_cons.1 hsteps
      cases hrest
      have hclosed : Said.leavesOpen true said = false := by simp [Said.leavesOpen, htable, hcommit]
      refine ⟨fun front last back heq => ?_, by simpa using hclosed⟩
      cases front with
      | nil => rfl
      | cons first front => simp at heq
    | cons statement inner =>
      obtain ⟨hsame, hsteps⟩ := List.cons_eq_cons.1 hsteps
      obtain ⟨⟨hcommit, hrollback⟩, hinner⟩ := List.forall_mem_cons.1 hinner
      have hopen : Said.leavesOpen true said = true := by
        simp [Said.leavesOpen, htable, hsame, hcommit, hrollback]
      obtain ⟨hall, hend⟩ := ih hsteps hinner
      refine ⟨fun front last back heq => ?_, by simpa [hopen] using hend⟩
      cases front with
      | nil => rfl
      | cons first front =>
        obtain ⟨rfl, htail⟩ := List.cons_eq_cons.1 heq
        simpa [hopen] using hall front last back htail
  | @abandoned said steps reply hsaid hreply =>
    have hne : said.statement ≠ .rollback := by
      cases inner with
      | nil =>
        rw [(List.cons_eq_cons.1 hsteps).1]
        decide
      | cons statement inner =>
        rw [(List.cons_eq_cons.1 hsteps).1]
        exact (hinner statement List.mem_cons_self).2
    have hopen := Said.leavesOpen_of_not_succeeds hsaid hreply hne
    refine ⟨fun front last back heq => ?_, by simp [hopen, Said.leavesOpen_rollback]⟩
    match front, heq with
    | [], _ => rfl
    | [first], heq =>
      obtain ⟨rfl, -⟩ := List.cons_eq_cons.1 heq
      simpa using hopen
    | _ :: _ :: front, heq => simp at heq
  | @dropped said steps hreply =>
    have hclosed : Said.leavesOpen true said = false := by simp [Said.leavesOpen, hreply]
    refine ⟨fun front last back heq => ?_, by simpa using hclosed⟩
    cases front with
    | nil => rfl
    | cons first front => simp at heq

end Carries

/-! ### Exchanges -/

namespace Exchange

/-- An exchange carries out steps in an open transaction. It gives a value if all of them succeed,
and `value` tells what that has to do with the statements. -/
structure Follows (exchange : Exchange α) (replies : List Reply) (steps : List Statement)
    (value : List Said → α → Prop) : Prop where
  rest : exchange.replies = replies.drop exchange.statements.length
  course : ∃ made behind, heard exchange.statements replies = made ++ behind ∧
    Carries steps made behind ∧
      ((∀ said ∈ made, said.Succeeds) → ∃ v, exchange.result = .ok v ∧ value made v) ∧
        ((∃ said ∈ made, ¬ said.Succeeds) → ∃ e, exchange.result = .error e)

theorem done_follows (v : α) (replies : List Reply) {value : List Said → α → Prop}
    (h : value [] v) : (done (.ok v) replies).Follows replies [] value :=
  ⟨rfl, [], [], rfl, .done, fun _ => ⟨v, rfl, h⟩, nofun⟩

/-- **A statement of an open transaction**: if it succeeds, the exchange goes on with the rest of
the steps, and otherwise it ends. -/
theorem within_follows {statement : Statement} {read : Table → Except DriverError β}
    {next : β → List Reply → Exchange α} {steps : List Statement} {value : List Said → α → Prop}
    (hread : ∀ table, (∃ v, read table = .ok v) ↔
      (statement = .count → ∃ n, table.integer = .ok n))
    (hnext : ∀ v table later, read table = .ok v → (next v later).Follows later steps
      fun made w => value (⟨statement, .rows table⟩ :: made) w)
    (replies : List Reply) :
    (within statement read next replies).Follows replies (statement :: steps) value := by
  have hlater := nextReply_snd replies
  generalize hreply : nextReply replies = answered at hlater
  obtain ⟨reply, later⟩ := answered
  obtain rfl : later = replies.drop 1 := hlater
  have hhead : ∀ rest, heard (statement :: rest) replies =
      ⟨statement, reply⟩ :: heard rest (replies.drop 1) := by
    intro rest
    rw [heard, hreply]
  unfold within
  simp only [hreply]
  cases hvalue : reply.table.bind read with
  | ok v =>
    obtain ⟨table, htable, hv⟩ : ∃ table, reply = .rows table ∧ read table = .ok v := by
      cases reply with
      | rows table => exact ⟨table, rfl, hvalue⟩
      | failure detail code => cases hvalue
      | drop => cases hvalue
    subst htable
    obtain ⟨hrest, made, behind, hheard, hcarries, hok, herror⟩ := hnext v table (replies.drop 1) hv
    have hsaid : (Said.mk statement (.rows table)).Succeeds :=
      ⟨table, rfl, (hread table).1 ⟨v, hv⟩⟩
    refine ⟨?_, ⟨statement, .rows table⟩ :: made, behind, ?_, .step hsaid hcarries, ?_, ?_⟩
    · simp only [hrest, List.drop_drop, List.length_cons]
      rw [Nat.add_comm]
    · rw [hhead, hheard]
      rfl
    · exact fun hall => hok fun said hs => hall said (List.mem_cons_of_mem _ hs)
    · rintro ⟨said, hs, hfails⟩
      rcases List.mem_cons.1 hs with rfl | hs
      · exact absurd hsaid hfails
      · exact herror ⟨said, hs, hfails⟩
  | error e =>
    have hfails : ¬ (Said.mk statement reply).Succeeds := by
      rintro ⟨table, rfl, hcount⟩
      obtain ⟨v, hv⟩ := (hread table).2 hcount
      cases hvalue.symm.trans hv
    by_cases hdrop : reply = .drop
    · subst hdrop
      have hcarries : Carries (statement :: steps) [⟨statement, .drop⟩] [] :=
        .dropped (show (Said.mk statement .drop).reply = .drop from rfl)
      refine ⟨rfl, [⟨statement, .drop⟩], [], hhead [], hcarries, ?_, fun _ => ⟨e, rfl⟩⟩
      exact fun hall => absurd (hall _ List.mem_cons_self) hfails
    · simp only [if_neg hdrop]
      refine ⟨?_, [⟨statement, reply⟩], [⟨.rollback, (nextReply (replies.drop 1)).1⟩],
        hhead [.rollback], .abandoned _ hfails hdrop, ?_, fun _ => ⟨e, rfl⟩⟩
      · rw [nextReply_snd, List.drop_drop]
        rfl
      · exact fun hall => absurd (hall _ List.mem_cons_self) hfails

/-- What a purge does once its transaction has begun. -/
def purgeBody : List Reply → Exchange Int64 :=
  within .lock ignore fun _ =>
  within .count Table.integer fun count =>
  within .truncate ignore fun _ =>
  within .commit ignore fun _ =>
  done (.ok count)

theorem purge_eq : purge = transaction purgeBody := rfl

/-- The steps of a purge behind its first one. -/
def bodySteps : List Statement := [.lock, .count, .truncate, .commit]

/-- The number is the one that was counted. -/
def Counted (made : List Said) (count : Int64) : Prop :=
  ∃ table, ⟨.count, .rows table⟩ ∈ made ∧ table.integer = .ok count

theorem ignore_iff {statement : Statement} (h : statement ≠ .count) (table : Table) :
    (∃ v, ignore table = .ok v) ↔ (statement = .count → ∃ n, table.integer = .ok n) :=
  ⟨fun _ hcount => absurd hcount h, fun _ => ⟨(), rfl⟩⟩

theorem purgeBody_follows (replies : List Reply) :
    (purgeBody replies).Follows replies bodySteps Counted := by
  refine within_follows (ignore_iff (by decide)) (fun _ locked later _ => ?_) replies
  refine within_follows (fun table => by simp) (fun count counted later hcount => ?_) later
  refine within_follows (ignore_iff (by decide)) (fun _ emptied later _ => ?_) later
  refine within_follows (ignore_iff (by decide)) (fun _ committed later _ => ?_) later
  exact done_follows count later ⟨counted, by simp, hcount⟩

end Exchange

/-! ### A purge -/

open Exchange (purgeBody bodySteps Counted)

variable {made behind : List Said}

/-- Where a step fails, nothing is committed. -/
theorem Carries.uncommitted {first last : Said} {front : List Said}
    (h : Carries bodySteps (front ++ [last]) behind) (hbegin : first.statement = .begin)
    (hfails : ¬ last.Succeeds) :
    ¬ ∃ said ∈ first :: (front ++ [last]), said.statement = .commit ∧ said.Succeeds := by
  have hall : (front ++ [last]).map Said.statement <+: [.lock, .count, .truncate] ++ [.commit] :=
    h.steps_prefix
  -- the last step may be any, but those in front of it are none but the first three
  have hfront : front.map Said.statement <+: [.lock, .count, .truncate] := by
    have hlength := hall.length_le
    simp only [List.length_map, List.length_append, List.length_cons, List.length_nil] at hlength
    rw [List.map_append] at hall
    refine List.prefix_of_prefix_length_le ((List.prefix_append _ _).trans hall)
      (List.prefix_append _ _) ?_
    simp only [List.length_map, List.length_cons, List.length_nil]
    omega
  rintro ⟨said, hs, hcommit, hsaid⟩
  rw [← List.cons_append] at hs
  rcases List.mem_append.1 hs with hs | hs
  · rcases List.mem_cons.1 hs with rfl | hs
    · exact absurd (hbegin.symm.trans hcommit) (by decide)
    · have hmem := hfront.subset (List.mem_map_of_mem hs)
      rw [hcommit] at hmem
      exact absurd hmem (by decide)
  · exact hfails (List.mem_singleton.1 hs ▸ hsaid)

theorem Said.Succeeds.reply_ne {said : Said} (h : said.Succeeds) : said.reply ≠ .drop := by
  obtain ⟨table, htable, -⟩ := h
  rw [htable]
  exact nofun

/-- Behind a `BEGIN` that succeeded, the steps that are made form a purge. -/
theorem isPurge_of_carries {first : Said} (hbegin : first.statement = .begin)
    (hfirst : first.Succeeds) (h : Carries bodySteps made behind) :
    IsPurge .ready (first :: made) behind := by
  have hfront : (first :: made).map Said.statement <+: purgeSteps := by
    rw [List.map_cons, hbegin]
    exact (List.prefix_cons_inj _).2 h.steps_prefix
  rcases h.cases_last with ⟨hsteps, hall, hbehind⟩ | ⟨front, last, rfl, hall, hfails, hdrop, hlive⟩
  · have hcommit : ∃ said ∈ made, said.statement = .commit := by
      have hmem : Statement.commit ∈ made.map Said.statement := by
        rw [hsteps]
        decide
      exact List.mem_map.1 hmem
    refine ⟨hfront, fun said hs => ?_, Or.inl ?_, fun hdangling => ?_, fun _ => hbehind⟩
    · exact List.forall_mem_cons.2 ⟨hfirst, hall⟩ said (List.dropLast_subset _ hs)
    · rw [List.map_cons, hbegin, hsteps]
      rfl
    · obtain ⟨said, hs, hstatement⟩ := hcommit
      exact absurd ⟨said, List.mem_cons_of_mem _ hs, hstatement, hall said hs⟩ hdangling.2.1
  · have hsucceeds := List.forall_mem_cons.2 ⟨hfirst, hall⟩
    refine ⟨hfront, fun said hs => ?_, Or.inr (Or.inl ⟨last, ?_, hfails⟩), fun hdangling => ?_,
      fun hdangling => ?_⟩
    · rw [← List.cons_append, List.dropLast_concat] at hs
      exact hsucceeds said hs
    · rw [← List.cons_append, List.getLast?_concat]
    · exact hlive (hdangling.2.2 last (by simp))
    · refine hdrop (by_contra fun hne => hdangling ⟨?_, h.uncommitted hbegin hfails, ?_⟩)
      · exact ⟨first, List.mem_cons_self, hbegin, hfirst⟩
      · rw [← List.cons_append]
        refine List.forall_mem_append.2 ⟨fun said hs => (hsucceeds said hs).reply_ne, ?_⟩
        simpa using hne

theorem toCount_eq_ok_iff {count : Int64} {n : Nat} :
    toCount count = .ok n ↔ count.toInt = (n : Int) := by
  unfold toCount
  split_ifs with h
  · rw [Except.ok.injEq]
    omega
  · refine ⟨nofun, fun hn => ?_⟩
    omega

/-- What a purge gives is told by the steps behind its `BEGIN`. -/
theorem tells_of_carries {first : Said} (hbegin : first.statement = .begin)
    (hfirst : first.Succeeds) (h : Carries bodySteps made behind) {result : Except StoreError Nat}
    (hok : (∀ said ∈ made, said.Succeeds) → ∃ count, result = toCount count ∧ Counted made count)
    (herror : (∃ said ∈ made, ¬ said.Succeeds) → ∃ e, result = .error e) :
    Tells (first :: made) result := by
  rcases h.cases_last with ⟨hsteps, hall, -⟩ | ⟨front, last, rfl, -, hfails, -, -⟩
  · obtain ⟨count, rfl, table, hmem, hcount⟩ := hok hall
    have hmap : (first :: made).map Said.statement = purgeSteps := by
      rw [List.map_cons, hbegin, hsteps]
      rfl
    have hmem' : ⟨.count, .rows table⟩ ∈ first :: made := List.mem_cons_of_mem _ hmem
    refine ⟨fun n => ?_, fun hnonneg e he => ?_⟩
    · rw [toCount_eq_ok_iff]
      refine ⟨fun hn => ⟨hmap, List.forall_mem_cons.2 ⟨hfirst, hall⟩, table, count, hmem', hcount,
        hn⟩, ?_⟩
      rintro ⟨-, -, other, counted, hother, hcounted, hn⟩
      -- the rows are counted once
      have hnodup : ((first :: made).map Said.statement).Nodup := by
        rw [hmap]
        decide
      cases List.inj_on_of_nodup_map hnodup hother hmem' rfl
      cases hcounted.symm.trans hcount
      exact hn
    · have hn := hnonneg table count hmem' hcount
      have hnat := toCount_eq_ok_iff.2 (Int.toNat_of_nonneg hn).symm
      cases hnat.symm.trans he
  · obtain ⟨e, rfl⟩ := herror ⟨last, by simp, hfails⟩
    refine ⟨fun n => ⟨nofun, ?_⟩, fun _ _ _ => h.uncommitted hbegin hfails⟩
    rintro ⟨-, hall, -⟩
    exact absurd (hall last (by simp)) hfails

/-- Without a `BEGIN` that succeeded there is nothing to be undone. -/
theorem isPurge_of_refused {reply : Reply} (h : ¬ (Said.mk .begin reply).Succeeds) :
    IsPurge .ready [⟨.begin, reply⟩] [] := by
  refine ⟨⟨bodySteps, rfl⟩, nofun, Or.inr (Or.inl ⟨_, rfl, h⟩), ?_, fun _ => rfl⟩
  rintro ⟨⟨said, hs, -, hsaid⟩, -⟩
  exact absurd (List.mem_singleton.1 hs ▸ hsaid) h

theorem tells_of_refused {reply : Reply} (h : ¬ (Said.mk .begin reply).Succeeds) (e : StoreError) :
    Tells [⟨.begin, reply⟩] (.error e) := by
  refine ⟨fun n => ⟨nofun, ?_⟩, fun _ _ _ => ?_⟩
  · rintro ⟨-, hall, -⟩
    exact absurd (hall _ (List.mem_singleton_self _)) h
  · rintro ⟨said, hs, -, hsaid⟩
    exact absurd (List.mem_singleton.1 hs ▸ hsaid) h

theorem isPurge_nil {pool : Pool} (h : pool ≠ .ready) : IsPurge pool [] [] := by
  refine ⟨List.nil_prefix, nofun, Or.inr (Or.inr ⟨h, rfl⟩), ?_, fun _ => rfl⟩
  rintro ⟨⟨said, hs, -⟩, -⟩
  cases hs

theorem tells_nil (e : StoreError) : Tells [] (.error e) := by
  refine ⟨fun n => ⟨nofun, ?_⟩, fun _ _ _ => ?_⟩
  · rintro ⟨hsteps, -⟩
    cases hsteps
  · rintro ⟨said, hs, -⟩
    cases hs

/-! ### One call -/

/-- What is known of every call: it uses up the replies to its statements, and a transaction is open
in front of a statement exactly if that is one of a purge behind the first. None is left open. -/
structure Turn.Settled (turn : Turn) : Prop where
  rest : turn.answered.replies = turn.replies.drop turn.answered.statements.length
  isOpen : ∀ front said back, turn.block = front ++ said :: back →
    (inTransaction front = true ↔ turn.call = .purge ∧ front ≠ [])
  isClosed : inTransaction turn.block = false

/-- A call of one statement at most, which does not begin a transaction. -/
theorem Turn.settled_of_single {turn : Turn}
    (hrest : turn.answered.replies = turn.replies.drop turn.answered.statements.length)
    (h : turn.answered.statements = [] ∨
      ∃ statement ≠ .begin, turn.answered.statements = [statement]) : turn.Settled := by
  rcases h with hnil | ⟨statement, hne, hone⟩
  · have hblock : turn.block = [] := by
      unfold block
      rw [hnil]
      rfl
    exact ⟨hrest, fun front said back heq => by simp [hblock] at heq, by rw [hblock]; rfl⟩
  · have hblock : turn.block = [⟨statement, (nextReply turn.replies).1⟩] := by
      unfold block
      rw [hone]
      rfl
    refine ⟨hrest, fun front said back heq => ?_, ?_⟩
    · cases front with
      | nil => simp [inTransaction]
      | cons first front => simp [hblock] at heq
    · rw [hblock]
      unfold inTransaction Said.leavesOpen
      cases (nextReply turn.replies).1 <;> simp [hne]

/-- A purge over an open connection is what it should be, and so is what it gives. -/
def Purges (replies : List Reply) : Prop :=
  (Turn.mk .ready .purge replies).Settled ∧
    ∃ made behind, (Turn.mk .ready .purge replies).block = made ++ behind ∧
      IsPurge .ready made behind ∧ Tells made (performIn .ready .purge replies).result

theorem heard_cons (statement : Statement) (rest : List Statement) (replies : List Reply) :
    heard (statement :: rest) replies =
      ⟨statement, (nextReply replies).1⟩ :: heard rest (replies.drop 1) := by
  rw [heard, nextReply_snd]

/-- The transaction does not begin. -/
theorem purges_of_refused {e : DriverError} (h : (nextReply replies).1.table = .error e) :
    Purges replies := by
  have hpurge : Exchange.purge replies = ⟨.error e, [.begin], replies.drop 1⟩ := by
    rw [Exchange.purge_eq]
    unfold Exchange.transaction
    simp only [h, nextReply_snd]
  have hblock : (Turn.mk .ready .purge replies).block = [⟨.begin, (nextReply replies).1⟩] := by
    show heard (Exchange.purge replies).statements replies = _
    rw [hpurge, heard_cons, heard]
  have hnot : ∀ table, (nextReply replies).1 ≠ .rows table := by
    intro table hrows
    rw [hrows] at h
    cases h
  have hfails : ¬ (Said.mk .begin (nextReply replies).1).Succeeds := by
    rintro ⟨table, hrows, -⟩
    exact hnot table hrows
  have hresult : (performIn .ready .purge replies).result = .error e.toStoreError := by
    unfold performIn perform
    rw [hpurge]
    rfl
  refine ⟨⟨?_, fun front said back heq => ?_, ?_⟩, _, [], hblock, isPurge_of_refused hfails, ?_⟩
  · show (Exchange.purge replies).replies =
      replies.drop (Exchange.purge replies).statements.length
    rw [hpurge]
    rfl
  · cases front with
    | nil => simp [inTransaction]
    | cons first front => simp [hblock] at heq
  · rw [hblock]
    unfold inTransaction Said.leavesOpen
    cases hreply : (nextReply replies).1 with
    | rows table => exact absurd hreply (hnot table)
    | failure detail code => rfl
    | drop => rfl
  · rw [hresult]
    exact tells_of_refused hfails _

/-- The transaction begins, and the rest of the purge is made inside it. -/
theorem purges_of_begun {table : Table} (h : (nextReply replies).1 = .rows table) :
    Purges replies := by
  have hpurge : Exchange.purge replies = ⟨(purgeBody (replies.drop 1)).result,
      .begin :: (purgeBody (replies.drop 1)).statements,
        (purgeBody (replies.drop 1)).replies⟩ := by
    rw [Exchange.purge_eq]
    unfold Exchange.transaction
    simp only [h, nextReply_snd]
    rfl
  obtain ⟨hrest, made, behind, hmade, hcarries, hok, herror⟩ :=
    Exchange.purgeBody_follows (replies.drop 1)
  have hsplit : bodySteps = [.lock, .count, .truncate] ++ [.commit] := rfl
  obtain ⟨hopen, hclosed⟩ := hcarries.isOpen hsplit (by decide)
  have hbegin : (Said.mk .begin (.rows table)).Succeeds :=
    ⟨table, rfl, fun h => absurd h (show Statement.begin ≠ .count by decide)⟩
  have hbegun : Said.leavesOpen false ⟨.begin, .rows table⟩ = true := rfl
  have hblock : (Turn.mk .ready .purge replies).block =
      (⟨.begin, .rows table⟩ :: made) ++ behind := by
    show heard (Exchange.purge replies).statements replies = _
    rw [hpurge, heard_cons, h, hmade]
    rfl
  refine ⟨⟨?_, fun front said back heq => ?_, ?_⟩, _, behind, hblock,
    isPurge_of_carries rfl hbegin hcarries, ?_⟩
  · show (Exchange.purge replies).replies =
      replies.drop (Exchange.purge replies).statements.length
    simp only [hpurge, hrest, List.drop_drop, List.length_cons]
    rw [Nat.add_comm]
  · cases front with
    | nil => simp [inTransaction]
    | cons first front =>
      rw [hblock] at heq
      obtain ⟨rfl, htail⟩ := List.cons_eq_cons.1 heq
      unfold inTransaction
      rw [List.foldl_cons, hbegun, hopen front said back htail]
      simp
  · rw [hblock]
    unfold inTransaction
    rw [List.cons_append, List.foldl_cons, hbegun, hclosed]
  · unfold performIn perform
    rw [hpurge]
    refine tells_of_carries rfl hbegin hcarries (fun hall => ?_) fun hfails => ?_
    · obtain ⟨count, hcount, hcounted⟩ := hok hall
      exact ⟨count, by simp only [Exchange.answer, hcount], hcounted⟩
    · obtain ⟨e, he⟩ := herror hfails
      exact ⟨e.toStoreError, by simp only [Exchange.answer, he]⟩

theorem purges (replies : List Reply) : Purges replies := by
  cases htable : (nextReply replies).1.table with
  | error e => exact purges_of_refused htable
  | ok table => exact purges_of_begun (Reply.table_eq_ok_iff.1 htable)

/-- A purge for which no connection is to be had. -/
theorem block_of_not_ready {pool : Pool} (hpool : pool ≠ .ready) (replies : List Reply) :
    (Turn.mk pool .purge replies).block = [] ∧ Tells [] (performIn pool .purge replies).result := by
  cases pool with
  | ready => exact absurd rfl hpool
  | exhausted => exact ⟨rfl, tells_nil _⟩
  | closed => exact ⟨rfl, tells_nil _⟩

/-- A call is one statement at most, unless it is a purge over an open connection. -/
theorem Turn.single_of_ne {turn : Turn} (h : turn.call ≠ .purge ∨ turn.pool ≠ .ready) :
    turn.answered.replies = turn.replies.drop turn.answered.statements.length ∧
      (turn.answered.statements = [] ∨
        ∃ statement ≠ .begin, turn.answered.statements = [statement]) := by
  obtain ⟨pool, call, replies⟩ := turn
  cases pool with
  | exhausted => exact ⟨rfl, Or.inl rfl⟩
  | closed => exact ⟨rfl, Or.inl rfl⟩
  | ready =>
    have hdrop := nextReply_snd replies
    have hparams : ∀ statement : Statement, statement.params ≠ [] → statement ≠ .begin :=
      fun statement hne hsame => hne (congrArg Statement.params hsame)
    cases call with
    | purge => exact absurd rfl (h.resolve_right fun hne => hne rfl)
    | find id => exact ⟨hdrop, Or.inr ⟨_, hparams (.find id) nofun, rfl⟩⟩
    | list => exact ⟨hdrop, Or.inr ⟨_, by decide, rfl⟩⟩
    | page window => exact ⟨hdrop, Or.inr ⟨_, hparams (.page window) nofun, rfl⟩⟩
    | insert draft => exact ⟨hdrop, Or.inr ⟨_, hparams (.insert draft) nofun, rfl⟩⟩
    | update id draft => exact ⟨hdrop, Or.inr ⟨_, hparams (.update id draft) nofun, rfl⟩⟩
    | delete id => exact ⟨hdrop, Or.inr ⟨_, hparams (.delete id) nofun, rfl⟩⟩
    | ping => exact ⟨hdrop, Or.inr ⟨_, by decide, rfl⟩⟩

theorem Turn.settled (turn : Turn) : turn.Settled := by
  by_cases h : turn.call ≠ .purge ∨ turn.pool ≠ .ready
  · obtain ⟨hrest, hstatements⟩ := Turn.single_of_ne h
    exact Turn.settled_of_single hrest hstatements
  · obtain ⟨pool, call, replies⟩ := turn
    obtain ⟨rfl, rfl⟩ : call = .purge ∧ pool = .ready := by simpa using h
    exact (purges replies).1

/-! ### Calls one after another -/

theorem map_turns (calls : List (Pool × StoreCall)) (script : List Reply) :
    (turns calls script).map (fun turn => (turn.pool, turn.call)) = calls := by
  induction calls generalizing script with
  | nil => rfl
  | cons call rest ih => rw [turns, List.map_cons, ih]

/-- Every statement gets the next reply of the script. -/
theorem flatMap_block_turns (calls : List (Pool × StoreCall)) (script : List Reply) :
    (turns calls script).flatMap Turn.block =
      heard ((turns calls script).flatMap fun turn => turn.answered.statements) script := by
  induction calls generalizing script with
  | nil => rfl
  | cons call rest ih =>
    obtain ⟨pool, call⟩ := call
    rw [turns, List.flatMap_cons, List.flatMap_cons, ih, heard_append,
      (Turn.settled ⟨pool, call, script⟩).rest]
    rfl

/-- No transaction is open behind any calls. -/
theorem inTransaction_flatMap_block (made : List Turn) :
    inTransaction (made.flatMap Turn.block) = false := by
  induction made with
  | nil => rfl
  | cons turn rest ih =>
    have hclosed := turn.settled.isClosed
    unfold inTransaction at hclosed ih ⊢
    rw [List.flatMap_cons, List.foldl_append, hclosed, ih]

/-- **A purge is one transaction, and no other call gets into it.** Of calls that are made one after
another, whatever is replied to their statements:
* the statements come in blocks, one for each call in order, and each statement gets the next reply;
* a call other than a purge is one statement at most;
* a purge is the front of its steps up to the first that fails, and is undone exactly if it has
  begun, was not committed, and its connection lives; it gives the number that was counted exactly
  if all steps succeed, and if it gives none, nothing was committed, unless the number is negative;
* a transaction is open in front of a statement exactly if that is one of a purge behind its first,
  and none is open in the end.
-/
theorem purge_in_one_transaction (calls : List (Pool × StoreCall)) (script : List Reply) :
    let made := turns calls script
    (made.map (fun turn => (turn.pool, turn.call)) = calls ∧
      made.flatMap Turn.block = heard (made.flatMap fun turn => turn.answered.statements) script) ∧
    (∀ turn ∈ made, turn.call ≠ .purge → turn.block.length ≤ 1) ∧
    (∀ pool replies, ⟨pool, .purge, replies⟩ ∈ made →
      ∃ steps behind, (Turn.mk pool .purge replies).block = steps ++ behind ∧
        IsPurge pool steps behind ∧ Tells steps (performIn pool .purge replies).result) ∧
    (∀ earlier turn later, made = earlier ++ turn :: later →
      ∀ front said back, turn.block = front ++ said :: back →
        (inTransaction (earlier.flatMap Turn.block ++ front) = true ↔
          turn.call = .purge ∧ front ≠ [])) ∧
    inTransaction (made.flatMap Turn.block) = false := by
  intro made
  refine ⟨⟨map_turns calls script, flatMap_block_turns calls script⟩, fun turn _ hcall => ?_,
    fun pool replies _ => ?_, fun earlier turn later _ front said back hblock => ?_,
    inTransaction_flatMap_block made⟩
  · have hlength : turn.block.length = turn.answered.statements.length := by
      rw [← List.length_map Said.statement]
      exact congrArg List.length (map_statement_heard _ _)
    rw [hlength]
    obtain ⟨-, hnil | ⟨statement, -, hone⟩⟩ := Turn.single_of_ne (Or.inl hcall)
    · simp [hnil]
    · simp [hone]
  · by_cases hpool : pool = .ready
    · subst hpool
      exact (purges replies).2
    · obtain ⟨hblock, htells⟩ := block_of_not_ready hpool replies
      exact ⟨[], [], hblock, isPurge_nil hpool, htells⟩
  · rw [← turn.settled.isOpen front said back hblock]
    have hclosed := inTransaction_flatMap_block earlier
    unfold inTransaction at hclosed ⊢
    rw [List.foldl_append, hclosed]

/-- The lock is refused, so the purge is rolled back, and that kills the connection. The call behind
it is outside of any transaction. -/
theorem purge_in_one_transaction_refused :
    let calls := [(Pool.ready, StoreCall.purge), (Pool.ready, StoreCall.ping)]
    let script := [.rows {}, .failure "lock timeout" "55P03", .drop, .rows {}]
    let made := turns calls script
    made.map Turn.block =
        [[⟨.begin, .rows {}⟩, ⟨.lock, .failure "lock timeout" "55P03"⟩, ⟨.rollback, .drop⟩],
          [⟨.ping, .rows {}⟩]] ∧
      (∃ steps behind, (Turn.mk .ready .purge script).block = steps ++ behind ∧
        IsPurge .ready steps behind ∧ Tells steps (performIn .ready .purge script).result) ∧
      ¬ inTransaction (Turn.mk .ready .purge script).block = true := by
  intro calls script made
  obtain ⟨-, -, hpurge, hopen, -⟩ := purge_in_one_transaction calls script
  refine ⟨by rfl, hpurge .ready script List.mem_cons_self, fun hinside => ?_⟩
  have hiff := hopen [⟨.ready, .purge, script⟩] ⟨.ready, .ping, [.rows {}]⟩ [] rfl [] _ [] rfl
  exact (hiff.1 (by simpa using hinside)).2 rfl

end Catalogue.Sql
