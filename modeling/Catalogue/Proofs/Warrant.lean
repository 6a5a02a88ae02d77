import Catalogue.Proofs.Degraded
import Catalogue.Proofs.Play

/-!
# What a call relies on

The service makes its delicate calls only right behind another one, and only upon a certain answer:

* a text is put into the cache right after the store gave or took that product;
* a row is changed or removed right after its text was dropped from the cache, or was not there;
* all rows are removed right after the cache was cleared;
* a row is inserted before anything else is done.

`Warrants` states these rules for one call, `Program.Warranted` for all calls of an operation that
is in progress, and `Operation.warranted` is the fact that the service keeps them. What the rules
are good for depends on who else may act between the two calls.
-/

namespace Catalogue

/-- The call made right before dropped the text of a product, or found that there was none. -/
def Drops (id : Int64) (before : Option Answered) : Prop :=
  before = some ⟨.cache (.delete id), .ok ()⟩ ∨
    ∃ missing, before = some ⟨.cache (.delete id), .error (.notFound missing)⟩

theorem Drops.exists_answer {id : Int64} {before : Option Answered} (h : Drops id before) :
    ∃ answer, before = some ⟨.cache (.delete id), answer⟩ := by
  rcases h with h | ⟨missing, h⟩
  · exact ⟨_, h⟩
  · exact ⟨_, h⟩

/-- Whether a call may be made when `before` is the call made right before it. -/
def Warrants (before : Option Answered) : Call → Prop
  | .cache (.set product) =>
    (∃ id, before = some ⟨.store (.find id), .ok product⟩) ∨
      ∃ draft id, before = some ⟨.store (.insert draft), .ok id⟩ ∧ product = draft.withId id
  | .store (.update id _) | .store (.delete id) => Drops id before
  | .store .purge => before = some ⟨.cache .clear, .ok ()⟩
  | .store (.insert _) => before = none
  | _ => True

namespace Program

variable {α β : Type}

/-- Every call from here on may be made when it is made. -/
def Warranted : Program α → Option Answered → Prop
  | .done _, _ => True
  | .ask call next, before =>
    Warrants before call ∧ ∀ answer, (next answer).Warranted (some ⟨call, answer⟩)
  | .log _ rest, before => rest.Warranted before

/-- An operation up to its next call or its end, without what it logs before. -/
def silent : Program α → Program α
  | .done value => .done value
  | .ask call next => .ask call next
  | .log _ rest => rest.silent

theorem warranted_silent (program : Program α) (before : Option Answered) :
    program.silent.Warranted before ↔ program.Warranted before := by
  induction program with
  | done value => exact Iff.rfl
  | ask call next => exact Iff.rfl
  | log event rest ih => exact ih

section

variable (before : Option Answered)

theorem warranted_cache_bind (call : CacheCall) (f : Except CacheError call.Value → Program β) :
    (cache call >>= f).Warranted before ↔
      Warrants before (.cache call) ∧
        ∀ answer, (f answer).Warranted (some ⟨.cache call, answer⟩) := Iff.rfl

theorem warranted_store_bind (call : StoreCall) (f : Except StoreError call.Value → Program β) :
    (store call >>= f).Warranted before ↔
      Warrants before (.store call) ∧
        ∀ answer, (f answer).Warranted (some ⟨.store call, answer⟩) := Iff.rfl

end

end Program

namespace Service

open Program

theorem fetchFromStore_warranted (requestId : String) (id : Int64) (earlier : List Fault)
    (before : Option Answered) : (fetchFromStore requestId id earlier).Warranted before := by
  unfold fetchFromStore
  rw [warranted_store_bind]
  refine ⟨trivial, ?_⟩
  rintro (e | row)
  · exact trivial
  · show (cache (.set row) >>= _).Warranted _
    rw [warranted_cache_bind]
    refine ⟨Or.inl ⟨id, rfl⟩, ?_⟩
    rintro (e | _)
    · exact trivial
    · exact trivial

theorem fetch_warranted (requestId : String) (id : Int64) :
    (fetch requestId id).Warranted none := by
  unfold fetch
  rw [warranted_cache_bind]
  refine ⟨trivial, ?_⟩
  rintro ((missing | message) | text)
  · exact fetchFromStore_warranted ..
  · exact fetchFromStore_warranted ..
  · exact trivial

theorem create_warranted (requestId : String) (draft : Draft) :
    (create requestId draft).Warranted none := by
  unfold create
  rw [warranted_store_bind]
  refine ⟨rfl, ?_⟩
  rintro (e | id)
  · exact trivial
  · show (cache (.set (draft.withId id)) >>= _).Warranted _
    rw [warranted_cache_bind]
    refine ⟨Or.inr ⟨draft, id, rfl, rfl⟩, ?_⟩
    rintro (e | _)
    · exact trivial
    · exact trivial

/-- A change that may be made once a text is dropped may be asked for by `replace`. -/
theorem replace_warranted {id : Int64} {change : Program (Except StoreError Product)}
    (h : ∀ earlier before, Drops id before → (conclude earlier change).Warranted before) :
    (replace id change).Warranted none := by
  rw [replace_eq, warranted_cache_bind]
  refine ⟨trivial, ?_⟩
  rintro ((missing | message) | _)
  · exact h _ _ (Or.inr ⟨missing, rfl⟩)
  · exact trivial
  · exact h _ _ (Or.inl rfl)

theorem update_warranted (id : Int64) (draft : Draft) : (update id draft).Warranted none :=
  replace_warranted fun _ _ hbefore => ⟨hbefore, fun _ => trivial⟩

theorem delete_warranted (id : Int64) : (delete id).Warranted none :=
  replace_warranted fun _ _ hbefore => ⟨hbefore, fun _ => trivial⟩

theorem deleteAll_warranted (requestId : String) : (deleteAll requestId).Warranted none := by
  unfold deleteAll
  rw [warranted_cache_bind]
  refine ⟨trivial, ?_⟩
  rintro (e | _)
  · exact trivial
  · show (store .purge >>= _).Warranted _
    rw [warranted_store_bind]
    refine ⟨rfl, ?_⟩
    rintro (e | count)
    · exact trivial
    · exact trivial

end Service

/-- **The service keeps the rules**: every call of an operation is warranted by the call right
before it. -/
theorem Operation.warranted (requestId : String) (operation : Operation) :
    (operation.program requestId).Warranted none := by
  cases operation with
  | fetch id => exact Service.fetch_warranted requestId id
  | create draft => exact Service.create_warranted requestId draft
  | update id draft => exact Service.update_warranted id draft
  | delete id => exact Service.delete_warranted id
  | deleteAll => exact Service.deleteAll_warranted requestId
  | list =>
    refine ⟨trivial, ?_⟩
    rintro (e | rows) <;> exact trivial
  | page window =>
    refine ⟨trivial, ?_⟩
    rintro (e | rows) <;> exact trivial
  | ping =>
    refine ⟨trivial, ?_⟩
    rintro (e | _) <;> exact trivial

/-- Only creating a product begins with inserting a row. -/
theorem Operation.eq_create_of_silent {requestId : String} {operation : Operation} {draft : Draft}
    {next : Except StoreError Int64 → Program (Outcome operation.Value)}
    (h : (operation.program requestId).silent = .ask (.store (.insert draft)) next) :
    operation = .create draft := by
  cases operation with
  | create other =>
    cases h
    rfl
  | fetch id => cases h
  | list => cases h
  | page window => cases h
  | update id draft => cases h
  | delete id => cases h
  | deleteAll => cases h
  | ping => cases h

end Catalogue
