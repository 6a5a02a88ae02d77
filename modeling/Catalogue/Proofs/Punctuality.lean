import Catalogue.Operation
import Catalogue.Rehearsal.World
import Mathlib.Tactic.Common

/-!
# Calls that share a deadline

A deadline is one moment, and all calls of a request run towards the same one. Calls that end when
they wake are looked at first, with a deadline or without (`runCalls_of_prompt`). The first call
that overruns is cut off at the deadline, or at once if that has passed, and from then on no time
passes any more: a call that need not sleep still gives its result, one that has to sleep is cut off
at once (`runCalls_of_passed`). The two together say what a whole run gives.
-/

namespace Catalogue

/-- How long a call sleeps if it wakes at all. -/
def Delay.span : Delay → Nat
  | .finite duration => duration
  | .endless => 0

/-- Whether a call that starts at `now` has to sleep, and longer than the deadline allows. -/
def Delay.Overruns (deadline now : Nat) : Delay → Prop
  | .finite duration => 0 < duration ∧ deadline < now + duration
  | .endless => True

instance (deadline now : Nat) : DecidablePred (Delay.Overruns deadline now)
  | .finite duration => inferInstanceAs (Decidable (0 < duration ∧ deadline < now + duration))
  | .endless => isTrue trivial

section Calls

variable {α : Type} {deadline now start : Nat} {delay : Delay} {result : α}

/-- When the call at some place starts if every call in front of it takes as long as it sleeps. -/
def startOf (start : Nat) (calls : List (Delay × α)) (place : Nat) : Nat :=
  (calls.take place).foldl (fun time call => time + call.1.span) start

/-- The call at place `k` overruns the deadline, and none in front of it does. -/
def FirstOverrun (deadline start : Nat) (calls : List (Delay × α)) (k : Nat) : Prop :=
  (∃ call, calls[k]? = some call ∧ call.1.Overruns deadline (startOf start calls k)) ∧
    ∀ i < k, ∀ call, calls[i]? = some call → ¬ call.1.Overruns deadline (startOf start calls i)

/-- What a call at some place gives when it wakes, like all those in front of it. -/
def inTime (start : Nat) (calls : List (Delay × α)) (place : Nat) (call : Delay × α) : Settled α :=
  ⟨some call.2, startOf start calls place + call.1.span⟩

/-- What a call gives once the deadline has passed: its result if it need not sleep. -/
def afterwards (time : Nat) (call : Delay × α) : Settled α :=
  ⟨if call.1 = .finite 0 then some call.2 else none, time⟩

@[simp] theorem startOf_zero (start : Nat) (calls : List (Delay × α)) :
    startOf start calls 0 = start := rfl

theorem startOf_cons_succ (start : Nat) (call : Delay × α) (calls : List (Delay × α)) (i : Nat) :
    startOf start (call :: calls) (i + 1) = startOf (start + call.1.span) calls i := rfl

/-! ### One call -/

theorem ending_of_punctual (h : ¬ delay.Overruns deadline now) :
    delay.ending (some deadline) now = .finished (now + delay.span) := by
  cases delay with
  | endless => exact absurd trivial h
  | finite duration =>
    have hends : now + duration ≤ now ∨ now + duration ≤ deadline := by
      have h' : ¬ (0 < duration ∧ deadline < now + duration) := h
      omega
    exact if_pos hends

theorem ending_of_overruns (h : delay.Overruns deadline now) :
    delay.ending (some deadline) now = .elapsed (max now deadline) := by
  cases delay with
  | endless => rfl
  | finite duration =>
    have h' : 0 < duration ∧ deadline < now + duration := h
    have hends : ¬ (now + duration ≤ now ∨ now + duration ≤ deadline) := by omega
    exact if_neg hends

theorem ending_none (h : delay ≠ .endless) :
    delay.ending none now = .finished (now + delay.span) := by
  cases delay with
  | endless => exact absurd rfl h
  | finite duration => rfl

/-- Once the deadline has passed, a call overruns it unless it need not sleep. -/
theorem overruns_iff_of_passed (h : deadline ≤ now) :
    delay.Overruns deadline now ↔ delay ≠ .finite 0 := by
  cases delay with
  | endless => simp [Delay.Overruns]
  | finite duration =>
    simp only [Delay.Overruns, ne_eq, Delay.finite.injEq]
    omega

/-- What is punctual stays so with a later deadline, and also if it starts when the earlier one has
passed. -/
theorem not_overruns_of_later {later now' : Nat} (hle : deadline ≤ later)
    (hnow : now = now' ∨ deadline ≤ now) (h : ¬ delay.Overruns deadline now) :
    ¬ delay.Overruns later now' := by
  cases delay with
  | endless => exact absurd trivial h
  | finite duration =>
    have h' : ¬ (0 < duration ∧ deadline < now + duration) := h
    show ¬ (0 < duration ∧ later < now' + duration)
    omega

/-- With a deadline every call ends: at the deadline at the latest, or at once if it has passed. -/
theorem exists_ending (delay : Delay) (deadline now : Nat) :
    ∃ time, (delay.ending (some deadline) now = .finished time ∨
      delay.ending (some deadline) now = .elapsed time) ∧ time ≤ max now deadline := by
  by_cases h : delay.Overruns deadline now
  · exact ⟨_, Or.inr (ending_of_overruns h), Nat.le_refl _⟩
  · refine ⟨_, Or.inl (ending_of_punctual h), ?_⟩
    cases delay with
    | endless => exact absurd trivial h
    | finite duration =>
      have h' : ¬ (0 < duration ∧ deadline < now + duration) := h
      simp only [Delay.span]
      omega

/-! ### One call after another -/

variable {calls rest : List (Delay × α)}

theorem runCalls_cons_of_punctual (h : ¬ delay.Overruns deadline now) :
    runCalls (some deadline) now ((delay, result) :: rest) =
      ⟨some result, now + delay.span⟩ :: runCalls (some deadline) (now + delay.span) rest := by
  rw [runCalls, ending_of_punctual h]

theorem runCalls_cons_of_overruns (h : delay.Overruns deadline now) :
    runCalls (some deadline) now ((delay, result) :: rest) =
      ⟨none, max now deadline⟩ :: runCalls (some deadline) (max now deadline) rest := by
  rw [runCalls, ending_of_overruns h]

/-- While calls end when they wake, the clock shows the running sum of their sleeps. -/
theorem runCalls_of_prompt (deadline : Option Nat) (start k : Nat)
    (h : ∀ i < k, ∀ call, calls[i]? = some call →
      call.1.ending deadline (startOf start calls i) =
        .finished (startOf start calls i + call.1.span)) :
    (∀ i < k, (runCalls deadline start calls)[i]? = calls[i]?.map (inTime start calls i)) ∧
      (runCalls deadline start calls).drop k =
        runCalls deadline (startOf start calls k) (calls.drop k) := by
  induction calls generalizing start k with
  | nil => simp [runCalls]
  | cons call rest ih =>
    cases k with
    | zero => simp
    | succ k =>
      have hfirst : runCalls deadline start (call :: rest) =
          ⟨some call.2, start + call.1.span⟩ :: runCalls deadline (start + call.1.span) rest := by
        have hending := h 0 (Nat.succ_pos k) call rfl
        rw [startOf_zero] at hending
        rw [runCalls, hending]
      obtain ⟨hrest, hdrop⟩ := ih (start + call.1.span) k fun i hi other hother => by
        have hending := h (i + 1) (Nat.succ_lt_succ hi) other hother
        rwa [startOf_cons_succ] at hending
      rw [hfirst, startOf_cons_succ]
      refine ⟨fun i hi => ?_, hdrop⟩
      cases i with
      | zero => simp [inTime]
      | succ i =>
        have hshift :
            inTime start (call :: rest) (i + 1) = inTime (start + call.1.span) rest i := by
          funext other
          rw [inTime, startOf_cons_succ, inTime]
        rw [hshift]
        exact hrest i (Nat.lt_of_succ_lt_succ hi)

/-- Once the deadline has passed no time passes any more. -/
theorem runCalls_of_passed (h : deadline ≤ now) (calls : List (Delay × α)) :
    runCalls (some deadline) now calls = calls.map (afterwards now) := by
  induction calls with
  | nil => rfl
  | cons call rest ih =>
    obtain ⟨delay, result⟩ := call
    by_cases hzero : delay = .finite 0
    · have hpunctual : ¬ delay.Overruns deadline now := by
        rw [overruns_iff_of_passed h]
        exact not_not_intro hzero
      have hspan : now + delay.span = now := by simp [hzero, Delay.span]
      rw [runCalls_cons_of_punctual hpunctual, hspan, ih]
      simp [afterwards, hzero]
    · have hover : delay.Overruns deadline now := (overruns_iff_of_passed h).2 hzero
      have hmax : max now deadline = now := by omega
      rw [runCalls_cons_of_overruns hover, hmax, ih]
      simp [afterwards, hzero]

/-- The first call that overruns stops the clock. -/
theorem runCalls_of_firstOverrun {k : Nat} (h : FirstOverrun deadline start calls k) (i : Nat) :
    (runCalls (some deadline) start calls)[i]? =
      if i < k then calls[i]?.map (inTime start calls i)
      else calls[i]?.map (afterwards (max (startOf start calls k) deadline)) := by
  obtain ⟨⟨call, hcall, hover⟩, hbefore⟩ := h
  obtain ⟨hprompt, hdrop⟩ := runCalls_of_prompt (some deadline) start k
    fun i hi call hcall => ending_of_punctual (hbefore i hi call hcall)
  split_ifs with hi
  · exact hprompt i hi
  · -- from the call that overruns on, all is as if the deadline had passed before
    have hsleeps : call.1 ≠ .finite 0 := by
      intro hzero
      rw [hzero] at hover
      exact absurd hover.1 (Nat.lt_irrefl 0)
    have hbehind : calls.drop k = call :: calls.drop (k + 1) := by
      obtain ⟨hlt, hget⟩ := List.getElem?_eq_some_iff.1 hcall
      rw [List.drop_eq_getElem_cons hlt, hget]
    have hall : runCalls (some deadline) (startOf start calls k) (calls.drop k) =
        (calls.drop k).map (afterwards (max (startOf start calls k) deadline)) := by
      rw [hbehind, runCalls_cons_of_overruns hover, runCalls_of_passed (Nat.le_max_right _ _)]
      simp [afterwards, hsleeps]
    have hplace : k + (i - k) = i := by omega
    calc (runCalls (some deadline) start calls)[i]?
        = ((runCalls (some deadline) start calls).drop k)[i - k]? := by
          rw [List.getElem?_drop, hplace]
      _ = ((calls.drop k).map (afterwards (max (startOf start calls k) deadline)))[i - k]? := by
          rw [hdrop, hall]
      _ = calls[i]?.map (afterwards (max (startOf start calls k) deadline)) := by
          rw [List.getElem?_map, List.getElem?_drop, hplace]

/-- If no call overruns, each gives its result when it wakes. -/
theorem runCalls_of_punctual (h : ∀ k, ¬ FirstOverrun deadline start calls k) (i : Nat) :
    (runCalls (some deadline) start calls)[i]? = calls[i]?.map (inTime start calls i) := by
  have hnone : ∀ (j : Nat) (call : Delay × α), calls[j]? = some call →
      ¬ call.1.Overruns deadline (startOf start calls j) := by
    intro j
    induction j using Nat.strongRecOn with
    | _ j ih => exact fun call hcall hover => h j ⟨⟨call, hcall, hover⟩, ih⟩
  have hprompt := runCalls_of_prompt (some deadline) start (i + 1)
    fun j _ call hcall => ending_of_punctual (hnone j call hcall)
  exact hprompt.1 i (Nat.lt_succ_self i)

/-- Without a deadline no call is cut off. -/
theorem result_of_mem_runCalls_none {settled : Settled α}
    (h : settled ∈ runCalls none start calls) :
    settled.result ≠ none := by
  induction calls generalizing start with
  | nil => cases h
  | cons call rest ih =>
    obtain ⟨delay, result⟩ := call
    cases delay with
    | endless => cases h
    | finite duration =>
      rcases List.mem_cons.1 h with rfl | hrest
      · exact Option.some_ne_none result
      · exact ih hrest

/-- With a later deadline every call still gives the result that it gave. The two runs keep the same
time until the earlier deadline has passed, and from then on only calls that need not sleep give
theirs. -/
theorem exists_result_of_later {later start' : Nat} (hle : deadline ≤ later)
    (hstart : start = start' ∨ deadline ≤ start) {i time : Nat}
    (h : (runCalls (some deadline) start calls)[i]? = some ⟨some result, time⟩) :
    ∃ time', (runCalls (some later) start' calls)[i]? = some ⟨some result, time'⟩ := by
  induction calls generalizing start start' i with
  | nil => cases h
  | cons call rest ih =>
    obtain ⟨delay, own⟩ := call
    by_cases hover : delay.Overruns deadline start
    · rw [runCalls_cons_of_overruns hover] at h
      have hpassed : deadline ≤ max start deadline := Nat.le_max_right _ _
      cases i with
      | zero => cases h
      | succ i =>
        by_cases hover' : delay.Overruns later start'
        · rw [runCalls_cons_of_overruns hover']
          exact ih (Or.inr hpassed) h
        · rw [runCalls_cons_of_punctual hover']
          exact ih (Or.inr hpassed) h
    · rw [runCalls_cons_of_punctual hover] at h
      rw [runCalls_cons_of_punctual (not_overruns_of_later hle hstart hover)]
      cases i with
      | zero =>
        cases h
        exact ⟨_, rfl⟩
      | succ i => exact ih (by omega) h

end Calls

/-! ### Operations -/

namespace Rehearsal.World

variable {α : Type} (world : World) (deadline : Nat)

theorem now_cacheSet (product : Product) : (world.cacheSet product).now = world.now := by
  unfold cacheSet
  dsimp only
  split <;> rfl

theorem now_act (call : Call) : (world.act call).2.now = world.now := by
  rcases call with (id | product | id | _) | call
  · rfl
  · exact world.now_cacheSet product
  · rfl
  · rfl
  · rfl

/-- A call is answered at the moment at which it wakes. -/
theorem now_respond (instead : Option Instead) (call : Call) :
    (world.respond instead call).2.now = world.now := by
  unfold respond
  split
  · rfl
  · exact world.now_act call

theorem exists_perform (call : Call) :
    ∃ answer after, world.perform (some deadline) call = some (answer, after) ∧
      after.now ≤ max world.now deadline := by
  let rule := (world.rules.rule? (.ofCall call)).getD {}
  obtain ⟨time, hending | hending, hle⟩ := exists_ending rule.delay deadline world.now
  · let woken : World := { world.begin call with now := time }
    refine ⟨(woken.respond rule.instead call).1, (woken.respond rule.instead call).2, ?_, ?_⟩
    · unfold perform
      dsimp only
      rw [hending]
    · rw [now_respond]
      exact hle
  · refine ⟨call.elapsed, { world.begin call with now := time }, ?_, hle⟩
    unfold perform
    dsimp only
    rw [hending]

theorem exists_ask (call : Call) :
    ∃ answer after, world.ask (some deadline) call = some (answer, after) ∧
      after.now ≤ max world.now deadline := by
  unfold ask
  split
  · split_ifs
    · exact ⟨_, world, rfl, Nat.le_max_left _ _⟩
    · exact world.exists_perform deadline _
  · exact world.exists_perform deadline _

/-- Under a deadline everything comes to its end, and in time. -/
theorem exists_run (program : Program α) :
    ∃ value after, World.run (some deadline) program world = some (value, after) ∧
      after.now ≤ max world.now deadline := by
  induction program generalizing world with
  | done value => exact ⟨value, world, rfl, Nat.le_max_left _ _⟩
  | ask call next ih =>
    obtain ⟨answer, mid, hask, hmid⟩ := world.exists_ask deadline call
    obtain ⟨value, after, hrun, hafter⟩ := ih answer mid
    refine ⟨value, after, ?_, by omega⟩
    unfold World.run
    rw [hask]
    exact hrun
  | log event rest ih => exact ih (world.note event)

end Rehearsal.World

/-- **What a deadline does to calls that come one after another.** Up to the first call that
overruns it, each gives its result at the running sum of the sleeps; that call is cut off at the
deadline, or at once if that has passed; and behind it no time passes, so that those that need not
sleep give their results and the others are cut off. An operation ends at the deadline, or at once
if that has passed, whatever its calls would do. A later deadline takes no call its result, and
without one every call that wakes gives it. -/
theorem deadline_shared {α : Type} (deadline start : Nat) (calls : List (Delay × α)) :
    (∀ k, FirstOverrun deadline start calls k → ∀ i,
      (runCalls (some deadline) start calls)[i]? =
        if i < k then calls[i]?.map (inTime start calls i)
        else calls[i]?.map (afterwards (max (startOf start calls k) deadline))) ∧
    ((∀ k, ¬ FirstOverrun deadline start calls k) → ∀ i,
      (runCalls (some deadline) start calls)[i]? = calls[i]?.map (inTime start calls i)) ∧
    (∀ (requestId : String) (operation : Operation) (world : Rehearsal.World),
      ∃ outcome after,
        Rehearsal.World.run (some deadline) (operation.program requestId) world =
          some (outcome, after) ∧ after.now ≤ max world.now deadline) ∧
    (∀ later, deadline ≤ later → ∀ (i : Nat) (result : α) (time : Nat),
      (runCalls (some deadline) start calls)[i]? = some ⟨some result, time⟩ →
        ∃ time', (runCalls (some later) start calls)[i]? = some ⟨some result, time'⟩) ∧
    (∀ i, (∀ j ≤ i, ∀ call, calls[j]? = some call → call.1 ≠ .endless) →
      (runCalls none start calls)[i]? = calls[i]?.map (inTime start calls i)) ∧
    ∀ settled ∈ runCalls none start calls, settled.result ≠ none := by
  refine ⟨fun k hk => runCalls_of_firstOverrun hk, runCalls_of_punctual, ?_, ?_, ?_, ?_⟩
  · exact fun requestId operation world => world.exists_run deadline (operation.program requestId)
  · exact fun later hle i result time => exists_result_of_later hle (Or.inl rfl)
  · intro i hwakes
    have hprompt := runCalls_of_prompt none start (i + 1)
      fun j hj call hcall => ending_none (hwakes j (Nat.le_of_lt_succ hj) call hcall)
    exact hprompt.1 i (Nat.lt_succ_self i)
  · exact fun settled => result_of_mem_runCalls_none

/-- One call need not sleep, one wakes exactly at the deadline, one overruns it, one need not sleep
and one never wakes. -/
theorem deadline_shared_at_five :
    let calls := [(Delay.finite 0, "a"), (.finite 3, "b"), (.finite 1, "c"), (.finite 0, "d"),
      (.endless, "e")]
    FirstOverrun 5 2 calls 2 ∧
      (runCalls (some 5) 2 calls)[1]? = some ⟨some "b", 5⟩ ∧
      (runCalls (some 5) 2 calls)[2]? = some ⟨none, 5⟩ ∧
      (runCalls (some 5) 2 calls)[3]? = some ⟨some "d", 5⟩ ∧
      (runCalls (some 5) 2 calls)[4]? = some ⟨none, 5⟩ ∧
      (∃ time, (runCalls (some 9) 2 calls)[3]? = some ⟨some "d", time⟩) ∧
      (runCalls none 2 calls)[3]? = some ⟨some "d", 6⟩ := by
  intro calls
  have hover : FirstOverrun 5 2 calls 2 := by
    refine ⟨⟨_, rfl, by decide⟩, fun i hi call hcall => ?_⟩
    rcases i with _ | _ | i
    · cases hcall
      decide
    · cases hcall
      decide
    · omega
  obtain ⟨hfirst, -, -, hlater, hnone, -⟩ := deadline_shared 5 2 calls
  refine ⟨hover, hfirst 2 hover 1, hfirst 2 hover 2, hfirst 2 hover 3, hfirst 2 hover 4,
    hlater 9 (by decide) 3 "d" 5 (hfirst 2 hover 3), hnone 3 fun j hj call hcall => ?_⟩
  rcases j with _ | _ | _ | _ | j
  · cases hcall
    decide
  · cases hcall
    decide
  · cases hcall
    decide
  · cases hcall
    decide
  · omega

end Catalogue
