import Catalogue.Service
import Mathlib.Tactic.Common

/-!
# Outcomes with warnings

Where the store has the last word, its answer becomes the outcome, and the faults before it go
along as warnings or as earlier faults (`degraded`). A change of a row comes to this once the
cached text is dropped, and to nothing if it cannot be dropped (`Service.replace_eq`).
-/

namespace Catalogue

/-- An answer of the store as an outcome, behind some faults. -/
def degraded {α : Type} (earlier : List Fault) : Except StoreError α → Outcome α
  | .ok value => .ok ⟨value, earlier⟩
  | .error e => .error ⟨.ofStore e, earlier⟩

namespace Service

/-- A change of a row behind some faults. -/
def conclude (earlier : List Fault) (change : Program (Except StoreError Product)) :
    Program (Outcome Product) :=
  change >>= fun answer => pure (degraded earlier answer)

/-- The text is dropped, and unless that fails the row is changed. -/
theorem replace_eq (id : Int64) (change : Program (Except StoreError Product)) :
    replace id change = Program.cache (.delete id) >>= fun dropped =>
      match dropped with
      | .ok _ => conclude [] change
      | .error (.notFound missing) => conclude [.ofCache (.notFound missing)] change
      | .error (.internal message) => pure (.error ⟨.ofCache (.internal message), []⟩) := by
  have hend : ∀ (earlier : List Fault) (f : Except StoreError Product → Program (Outcome Product)),
      (∀ previous, f (.ok previous) = pure (.ok ⟨previous, earlier⟩)) →
      (∀ e, f (.error e) = pure (.error ⟨.ofStore e, earlier⟩)) →
        (change >>= f) = conclude earlier change := by
    intro earlier f hok herror
    refine congrArg (change >>= ·) (funext fun answer => ?_)
    cases answer with
    | ok previous => exact hok previous
    | error e => exact herror e
  refine congrArg (Program.ask (.cache (.delete id))) (funext fun dropped => ?_)
  rcases dropped with (missing | message) | _
  · exact hend [.ofCache (.notFound missing)] _ (fun _ => rfl) fun _ => rfl
  · rfl
  · exact hend [] _ (fun _ => rfl) fun _ => rfl

end Service

end Catalogue
