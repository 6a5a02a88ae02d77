import Catalogue.Operation

/-!
# Plays

A *play* of an operation fixes what each of its backend calls is answered and follows the operation
to its end. It gives the calls that were made, each with its answer, and the value at the end.
Every choice of answers has one play (`Program.play`), so "whatever the backends answer" is a
statement about all plays. `Program.Ensures` says it of the tree itself, where it can be proved
call by call.
-/

namespace Catalogue

/-- A backend call with what it was answered. -/
structure Answered where
  call : Call
  answer : call.Answer

/-- Answers to the calls of an operation in the order in which they are made. -/
abbrev Answers := Nat → (call : Call) → call.Answer

namespace Program

variable {α β : Type}

/-- The calls made, with their answers, and the end. -/
def play : Program α → Answers → List Answered × α
  | .done value, _ => ([], value)
  | .ask call next, answers =>
    let rest := (next (answers 0 call)).play fun n => answers (n + 1)
    (⟨call, answers 0 call⟩ :: rest.1, rest.2)
  | .log _ rest, answers => rest.play answers

/-- Whatever the calls are answered, `Q` holds of the calls made with their answers and of the end.
-/
def Ensures : Program α → (List Answered → α → Prop) → Prop
  | .done value, Q => Q [] value
  | .ask call next, Q =>
    ∀ answer, (next answer).Ensures fun made value => Q (⟨call, answer⟩ :: made) value
  | .log _ rest, Q => rest.Ensures Q

theorem Ensures.play {program : Program α} {Q : List Answered → α → Prop}
    (h : program.Ensures Q) (answers : Answers) :
    Q (program.play answers).1 (program.play answers).2 := by
  induction program generalizing Q answers with
  | done value => exact h
  | ask call next ih => exact ih (answers 0 call) (h (answers 0 call)) fun n => answers (n + 1)
  | log event rest ih => exact ih h answers

theorem Ensures.mono {program : Program α} {Q Q' : List Answered → α → Prop}
    (h : program.Ensures Q) (hQ : ∀ made value, Q made value → Q' made value) :
    program.Ensures Q' := by
  induction program generalizing Q Q' with
  | done value => exact hQ [] value h
  | ask call next ih => exact fun answer => ih answer (h answer) fun made value => hQ _ value
  | log event rest ih => exact ih h hQ

/-- What makes no calls only changes the end of a play. -/
theorem play_bind_of_quiet (program : Program α) {f : α → Program β} {g : α → β}
    (h : ∀ value answers, (f value).play answers = ([], g value)) (answers : Answers) :
    (program >>= f).play answers = ((program.play answers).1, g (program.play answers).2) := by
  induction program generalizing answers with
  | done value => exact h value answers
  | ask call next ih =>
    have hrest := ih (answers 0 call) fun n => answers (n + 1)
    have hplay : (Program.ask call next >>= f).play answers =
        let rest := (next (answers 0 call) >>= f).play fun n => answers (n + 1)
        (⟨call, answers 0 call⟩ :: rest.1, rest.2) := rfl
    rw [hplay, hrest]
    rfl
  | log event rest ih => exact ih answers

section Ensures

variable {Q : List Answered → β → Prop}

@[simp] theorem ensures_cache_bind (call : CacheCall)
    (f : Except CacheError call.Value → Program β) :
    (cache call >>= f).Ensures Q ↔
      ∀ answer, (f answer).Ensures fun made value => Q (⟨.cache call, answer⟩ :: made) value :=
  Iff.rfl

@[simp] theorem ensures_store_bind (call : StoreCall)
    (f : Except StoreError call.Value → Program β) :
    (store call >>= f).Ensures Q ↔
      ∀ answer, (f answer).Ensures fun made value => Q (⟨.store call, answer⟩ :: made) value :=
  Iff.rfl

theorem ensures_bind (program : Program α) (f : α → Program β) :
    (program >>= f).Ensures Q ↔
      program.Ensures fun made value =>
        (f value).Ensures fun more result => Q (made ++ more) result := by
  induction program generalizing Q with
  | done value => exact Iff.rfl
  | ask call next ih => exact forall_congr' fun answer => ih answer
  | log event rest ih => exact ih

end Ensures

end Program

end Catalogue
