/-!
# Calls under a deadline

Time is a number of milliseconds. A call sleeps for a while and then gives its result. It is looked
at before the clock: a call that need not sleep gives its result even when the deadline has passed,
and one that wakes exactly at the deadline still gives it. Any other call is cut off at the
deadline, or at once when that has passed already.
-/

namespace Catalogue

/-- How long a call sleeps before it gives its result. -/
inductive Delay where
  | finite (duration : Nat)
  | endless
  deriving DecidableEq, Repr

/-- How a call ends, and when. -/
inductive Ending where
  | finished (time : Nat)
  | elapsed (time : Nat)
  | never
  deriving DecidableEq, Repr

/-- When a call that starts at `now` wakes, if it ever does. -/
def Delay.wake? (now : Nat) : Delay → Option Nat
  | .finite duration => some (now + duration)
  | .endless => none

/-- Waits from `now` on for a call that wakes at some time, but not beyond a deadline. Whenever
there is something to see, the call is looked at before the clock. -/
def timeoutAt (deadline now : Nat) : Option Nat → Ending
  | some wake =>
    if wake ≤ now ∨ wake ≤ deadline then .finished wake else .elapsed (max now deadline)
  | none => .elapsed (max now deadline)

/-- The end of a call that starts at `now`, which is waited for however long it takes if there is no
deadline. -/
def Delay.ending (delay : Delay) (deadline : Option Nat) (now : Nat) : Ending :=
  match deadline with
  | some deadline => timeoutAt deadline now (delay.wake? now)
  | none => (delay.wake? now).elim .never .finished

/-- What a call gave: its own result or that its deadline elapsed, and when. -/
structure Settled (α : Type) where
  result : Option α
  time : Nat
  deriving DecidableEq, Repr

/-- Runs calls one after another under one deadline. The run ends early only at a call that never
ends. -/
def runCalls {α : Type} (deadline : Option Nat) (now : Nat) : List (Delay × α) → List (Settled α)
  | [] => []
  | (delay, result) :: rest =>
    match delay.ending deadline now with
    | .finished time => ⟨some result, time⟩ :: runCalls deadline time rest
    | .elapsed time => ⟨none, time⟩ :: runCalls deadline time rest
    | .never => []

/-- What every backend call of one request observes. -/
structure CallContext where
  requestId : String
  deadline : Option Nat
  deriving DecidableEq, Repr

namespace CallContext

/-- The latest second that the clock can hold. -/
def latestSecond : Nat := 0x7FFFFFFFFFFFFFFF

/-- A context whose deadline lies `timeout` after `now`, or none at all. The clock cannot hold every
deadline: past its latest second there is no context. -/
def start? (requestId : String) (now : Nat) (timeout : Option Nat) : Option CallContext :=
  match timeout with
  | none => some ⟨requestId, none⟩
  | some t =>
    if (now + t) / 1000 ≤ latestSecond then some ⟨requestId, some (now + t)⟩ else none

end CallContext

end Catalogue
