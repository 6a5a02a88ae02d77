import Catalogue.Proofs.Transparency
import Catalogue.Proofs.Untouched
import Catalogue.Rehearsal.World

/-!
# Rehearsals are attempts

What is proved of all answers and of all backends holds of the world in which operations are
rehearsed. A run there is one of the plays of the operation, and no call that fails changes a row
(`World.exists_play`), so a rehearsed request that fails leaves the rows alone, whatever the rules
(`World.rows_of_failed_run`). If the rules only delay calls and let them fail, a run is also one of
the attempts at the operation (`World.exists_attempt`), so a rehearsal that finds the cache coherent
leaves it so (`World.coherent_of_run`); and without any rule it is a run on a stack
(`World.run_eq_runOn`).
-/

namespace Catalogue.Rehearsal

/-- The answer in the place of what a backend would have done is a failure. -/
def Instead.IsFailure : Instead → Prop
  | .internal _ | .timeout => True
  | .notFound _ | .product _ | .text _ => False

/-- Rules that do nothing but delay calls and let them fail. -/
def Rules.Honest (rules : Rules) : Prop :=
  ∀ entry ∈ rules, ∀ instead, entry.2.instead = some instead → instead.IsFailure

/-- The backends of a world. -/
def World.Holds (world : World) (s : Backends) : Prop :=
  s.table.rows = world.store.rows ∧ s.cache = world.cache

variable {α : Type} {world after : World} {s : Backends} {call : Call} {answer : call.Answer}

theorem Instead.fails_of_answer? {instead : Instead} (h : instead.IsFailure)
    (hanswer : instead.answer? call = some answer) : Fails call answer := by
  cases instead with
  | internal message =>
    cases call with
    | cache call =>
      cases hanswer
      exact ⟨message, rfl⟩
    | store call =>
      cases hanswer
      exact Or.inr ⟨message, rfl⟩
  | timeout =>
    cases call with
    | cache call => cases hanswer
    | store call =>
      cases hanswer
      exact Or.inl rfl
  | notFound id => exact h.elim
  | product p => exact h.elim
  | text text => exact h.elim

theorem fails_elapsed (call : Call) : Fails call call.elapsed := by
  cases call with
  | cache call => exact ⟨_, rfl⟩
  | store call => exact Or.inl rfl

theorem Rules.mem_of_rule? {rules : Rules} {point : Point} {rule : Rule}
    (h : rules.rule? point = some rule) : (point, rule) ∈ rules := by
  obtain ⟨front, back, heq, -⟩ := List.lookup_eq_some_iff.1 h
  rw [heq]
  exact List.mem_append_right _ (List.mem_cons_self ..)

theorem Rule.instead_of_used {rule left : Rule} (h : rule.used = some left) :
    left.instead = rule.instead := by
  unfold used at h
  split at h
  · cases h
    rfl
  · split at h
    · cases h
    · cases h
      rfl

namespace World

/-- Using a rule leaves the rules honest. -/
theorem honest_begin (hrules : world.rules.Honest) (call : Call) :
    (world.begin call).rules.Honest := by
  unfold begin
  dsimp only
  cases hrule : world.rules.rule? (.ofCall call) with
  | none => exact hrules
  | some rule =>
    intro entry hentry
    rcases List.mem_append.1 hentry with hleft | hother
    · obtain ⟨left, hl, rfl⟩ := List.mem_map.1 hleft
      rw [Rule.instead_of_used (Option.mem_toList.1 hl)]
      exact hrules _ (Rules.mem_of_rule? hrule)
    · exact hrules entry (List.mem_filter.1 hother).1

/-- If a rule puts anything in the place of a call, then a failure. -/
theorem isFailure_of_rule {instead : Instead} (hrules : world.rules.Honest)
    (h : ((world.rules.rule? (.ofCall call)).getD {}).instead = some instead) :
    instead.IsFailure := by
  cases hrule : world.rules.rule? (.ofCall call) with
  | none =>
    rw [hrule] at h
    cases h
  | some rule =>
    rw [hrule] at h
    exact hrules _ (Rules.mem_of_rule? hrule) instead h

/-! ### Calls -/

/-- An undisturbed call is answered as the backends of the world answer it. -/
theorem act_eq (hs : world.Holds s) (call : Call) :
    (world.act call).1 = (s.act (world.store.lastId + 1) call).1 ∧
      (world.act call).2.Holds (s.act (world.store.lastId + 1) call).2 := by
  obtain ⟨⟨rows, hrows⟩, cache⟩ := s
  obtain rfl : rows = world.store.rows := hs.1
  obtain rfl : cache = world.cache := hs.2
  cases call with
  | store call =>
    obtain ⟨hanswer, hafter⟩ := world.store.answer_eq hrows call
    exact ⟨hanswer, hafter.symm, rfl⟩
  | cache call =>
    cases call with
    | get id | delete id | clear => exact ⟨rfl, rfl, rfl⟩
    | set product =>
      have hset : (world.cacheSet product).store = world.store ∧
          (world.cacheSet product).cache = (world.cache.set product).2 := by
        unfold cacheSet
        dsimp only
        split
        · exact ⟨rfl, rfl⟩
        · exact ⟨rfl, rfl⟩
      exact ⟨rfl, congrArg MemoryStore.rows hset.1.symm, hset.2.symm⟩

@[simp] theorem rules_act (world : World) (call : Call) :
    (world.act call).2.rules = world.rules := by
  cases call with
  | store call => rfl
  | cache call =>
    cases call with
    | get id | delete id | clear => rfl
    | set product =>
      show (world.cacheSet product).rules = world.rules
      unfold cacheSet
      dsimp only
      split
      · rfl
      · rfl

/-- What happens at a call once it no longer waits is what the backends suffer. -/
theorem exists_suffers_of_respond {instead : Option Instead} (hs : world.Holds s)
    (hrules : ∀ i, instead = some i → i.IsFailure)
    (hfresh : ∀ draft, call = .store (.insert draft) →
      s.table.row? (world.store.lastId + 1) = none) :
    ∃ t, (world.respond instead call).2.Holds t ∧
      s.Suffers call (world.respond instead call).1 t ∧
        (world.respond instead call).2.rules = world.rules := by
  unfold respond
  split
  · rename_i answer hanswer
    obtain ⟨i, hi, hanswer⟩ := Option.bind_eq_some_iff.1 hanswer
    exact ⟨s, hs, .refused (Instead.fails_of_answer? (hrules i hi) hanswer), rfl⟩
  · obtain ⟨hanswer, hafter⟩ := act_eq hs call
    refine ⟨_, hafter, .served ?_, rules_act world call⟩
    rw [hanswer]
    exact s.serves_act call hfresh

/-- How a call of the service may end in a world. -/
inductive Ends (world : World) : (call : Call) → call.Answer → World → Prop
  | reachable : Ends world (.store .ping) (.ok ()) world
  | answered {call : Call} {answer : call.Answer} {after : World} (time : Nat) :
      ({ world.begin call with now := time } : World).respond
        ((world.rules.rule? (.ofCall call)).getD {}).instead call = (answer, after) →
      Ends world call answer after
  | elapsed (call : Call) (time : Nat) :
      Ends world call call.elapsed { world.begin call with now := time }

theorem ends_of_ask {deadline : Option Nat} (h : world.ask deadline call = some (answer, after)) :
    world.Ends call answer after := by
  have hperform : world.perform deadline call = some (answer, after) →
      world.Ends call answer after := by
    intro h
    unfold perform at h
    dsimp only at h
    split at h
    · exact .answered _ (Option.some.inj h)
    · cases h
      exact .elapsed call _
    · cases h
  unfold ask at h
  split at h
  · split at h
    · cases h
      exact .reachable
    · exact hperform h
  · exact hperform h

/-- A call under honest rules is one that the backends suffer. -/
theorem exists_suffers (hs : world.Holds s) (hrules : world.rules.Honest)
    (hfresh : ∀ draft, call = .store (.insert draft) →
      s.table.row? (world.store.lastId + 1) = none)
    (h : world.Ends call answer after) :
    ∃ t, after.Holds t ∧ s.Suffers call answer t ∧ after.rules.Honest := by
  cases h with
  | reachable => exact ⟨s, hs, .served ⟨rfl, rfl⟩, hrules⟩
  | answered time h =>
    have hbegun : ({ world.begin call with now := time } : World).Holds s := hs
    obtain ⟨t, ht, hsuffers, hleft⟩ := exists_suffers_of_respond hbegun
      (fun i hi => isFailure_of_rule hrules hi) hfresh
    rw [h] at ht hsuffers hleft
    exact ⟨t, ht, hsuffers, hleft ▸ honest_begin hrules call⟩
  | elapsed time => exact ⟨s, hs, .refused (fails_elapsed call), honest_begin hrules call⟩

/-- Under any rules a call that fails changes no row. -/
theorem exists_holds (hs : world.Holds s) (h : world.Ends call answer after) :
    ∃ t, after.Holds t ∧ (¬ Answered.Stored ⟨call, answer⟩ → t.table = s.table) := by
  cases h with
  | reachable => exact ⟨s, hs, fun _ => rfl⟩
  | answered time h =>
    have hbegun : ({ world.begin call with now := time } : World).Holds s := hs
    unfold respond at h
    split at h
    · cases h
      exact ⟨s, hbegun, fun _ => rfl⟩
    · obtain ⟨hanswer, hafter⟩ := act_eq hbegun call
      rw [h] at hanswer hafter
      refine ⟨_, hafter, fun hstored => s.table_act _ call ?_⟩
      rwa [← hanswer]
  | elapsed time => exact ⟨s, hs, fun _ => rfl⟩

/-! ### Runs -/

/-- **A rehearsal is an attempt.** If the rules only delay calls and let them fail, a run of an
operation that keeps the rules of the service is one that backends may suffer. -/
theorem exists_attempt {deadline : Option Nat} {program : Program α} {before : Option Answered}
    {value : α} (hs : world.Holds s) (hrules : world.rules.Honest)
    (hprogram : program.Warranted before)
    (hfresh : before = none → ∀ draft next, program.silent = .ask (.store (.insert draft)) next →
      s.table.row? (world.store.lastId + 1) = none)
    (h : World.run deadline program world = some (value, after)) :
    ∃ trail, program.Attempt s trail ∧ after.Holds (trail.getLastD s) := by
  induction program generalizing world s before with
  | done value =>
    cases h
    exact ⟨[], .stop _ s, hs⟩
  | ask call next ih =>
    unfold World.run at h
    split at h
    · rename_i answer world' hask
      obtain ⟨t, ht, hsuffers, hleft⟩ := exists_suffers hs hrules (fun draft hcall => by
        subst hcall
        exact hfresh hprogram.1 draft next rfl) (ends_of_ask hask)
      obtain ⟨trail, hattempt, hend⟩ := ih answer ht hleft (hprogram.2 answer) nofun h
      refine ⟨t :: trail, .call hsuffers hattempt, ?_⟩
      rwa [List.getLastD_cons]
    · cases h
  | log event rest ih =>
    have hrest : World.run deadline rest (world.note event) = some (value, after) := h
    have hnoted : (world.note event).Holds s := hs
    obtain ⟨trail, hattempt, hend⟩ := ih hnoted hrules hprogram hfresh hrest
    exact ⟨trail, .log hattempt, hend⟩

/-- A rehearsal that finds the cache coherent leaves it so. -/
theorem coherent_of_run {deadline : Option Nat} {requestId : String} {operation : Operation}
    {outcome : Outcome operation.Value} (hs : world.Holds s) (hcoherent : s.Coherent)
    (hrules : world.rules.Honest)
    (hfresh : ∀ draft, operation = .create draft →
      s.table.row? (world.store.lastId + 1) = none)
    (h : World.run deadline (operation.program requestId) world = some (outcome, after)) :
    ∃ t, after.Holds t ∧ t.Coherent := by
  obtain ⟨trail, hattempt, hend⟩ := exists_attempt hs hrules (operation.warranted requestId)
    (fun _ draft next hsilent => hfresh draft (Operation.eq_create_of_silent hsilent)) h
  exact ⟨_, hend, Backends.coherent_getLastD hcoherent
    (hattempt.coherent hcoherent.sound (operation.warranted requestId))⟩

/-- A run of an operation is one of its plays, and the rows are borne through it. -/
theorem exists_play {deadline : Option Nat} {program : Program α} {value : α} (hs : world.Holds s)
    (h : World.run deadline program world = some (value, after)) :
    ∃ answers t, after.Holds t ∧ s.Bears (program.play answers).1 t ∧
      (program.play answers).2 = value := by
  induction program generalizing world s with
  | done value =>
    cases h
    exact ⟨fun _ call => call.elapsed, s, hs, .nil s, rfl⟩
  | ask call next ih =>
    unfold World.run at h
    split at h
    · rename_i answer world' hask
      obtain ⟨mid, hmid, hkept⟩ := exists_holds hs (ends_of_ask hask)
      obtain ⟨answers, t, ht, hbears, hvalue⟩ := ih answer hmid h
      -- the call gets its answer, and what comes behind it those that belong there
      let answered : Answers := fun n call' =>
        if hn : n = 0 ∧ call' = call then hn.2 ▸ answer else answers (n - 1) call'
      have hplay : (Program.ask call next).play answered =
          (⟨call, answer⟩ :: ((next answer).play answers).1, ((next answer).play answers).2) := by
        simp [answered, Program.play]
      refine ⟨answered, t, ht, ?_, ?_⟩
      · rw [hplay]
        exact .cons hkept hbears
      · rw [hplay]
        exact hvalue
    · cases h
  | log event rest ih =>
    have hnoted : (world.note event).Holds s := hs
    exact ih hnoted h

/-- **A rehearsed request that fails leaves the rows alone**, under any rules and any deadline. -/
theorem rows_of_failed_run {deadline : Option Nat} {requestId : String} {request : Http.Request}
    {response : Http.Response} (hs : world.Holds s)
    (h : World.run deadline (Http.serveLogged requestId request) world = some (response, after))
    (hfailed : ¬ (200 ≤ response.status ∧ response.status < 300)) :
    after.store.rows = world.store.rows := by
  obtain ⟨answers, t, ht, hbears, rfl⟩ := exists_play hs h
  have htable := Http.table_eq_of_failed requestId request answers hbears hfailed
  rw [← ht.1, htable, hs.1]

/-- Without a rule and without a deadline a call is answered as its backends answer it. -/
theorem ask_eq (hs : world.Holds s) (hrules : world.rules = []) (call : Call) :
    ∃ after, world.ask none call = some ((s.act (world.store.lastId + 1) call).1, after) ∧
      after.Holds (s.act (world.store.lastId + 1) call).2 ∧ after.rules = [] := by
  have hperform : ∃ after,
      world.perform none call = some ((s.act (world.store.lastId + 1) call).1, after) ∧
        after.Holds (s.act (world.store.lastId + 1) call).2 ∧ after.rules = [] := by
    let begun : World :=
      { world with rules := [], now := world.now + 0, calls := call :: world.calls }
    have hbegun : begun.Holds s := hs
    obtain ⟨hanswer, hafter⟩ := act_eq hbegun call
    refine ⟨(begun.act call).2, ?_, hafter, rules_act begun call⟩
    have h : world.perform none call = some (begun.act call) := by
      unfold perform begin respond Rules.rule?
      rw [hrules]
      rfl
    rw [h, ← hanswer]
  unfold ask
  split
  · split
    · exact ⟨world, rfl, hs, hrules⟩
    · exact hperform
  · exact hperform

/-- **A rehearsal without rules is a run on a stack without faults**, where a new row gets the next
identifier. -/
theorem run_eq_runOn {program : Program α} {before : Option Answered} {stack : Stack}
    {fresh : Int64} (hs : world.Holds stack.backends) (hrules : world.rules = [])
    (hprogram : program.Warranted before)
    (hfresh : before = none → world.store.lastId + 1 = fresh) :
    ∃ after,
      World.run none program world = some ((program.runOn (fun _ => none) fresh stack).1, after) ∧
        after.Holds (program.runOn (fun _ => none) fresh stack).2.backends := by
  induction program generalizing world stack before with
  | done value => exact ⟨world, rfl, hs⟩
  | ask call next ih =>
    obtain ⟨world', hask, hholds, hleft⟩ := ask_eq hs hrules call
    have hact : stack.backends.act (world.store.lastId + 1) call =
        stack.backends.act fresh call := by
      refine Backends.act_eq_act _ call fun draft hcall => hfresh ?_
      subst hcall
      exact hprogram.1
    rw [hact] at hask hholds
    unfold World.run Program.runOn
    rw [hask, Stack.answer_of_no_faults]
    exact ih _ hholds hleft (hprogram.2 _) nofun
  | log event rest ih =>
    have hnoted : (world.note event).Holds stack.backends := hs
    exact ih hnoted hrules hprogram hfresh

end World

end Catalogue.Rehearsal
