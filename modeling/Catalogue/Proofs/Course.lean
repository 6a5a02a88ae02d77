import Catalogue.Proofs.FaultLedger

/-!
# The courses of an operation

There are few ways in which an operation can go: which calls it makes depends on what the calls
before were answered, and its result on what the last of those that count was answered.
`Operation.Course` lists them all, without the warnings, which `Settles` already accounts for. That
an operation goes no other way is `Operation.runs`. What holds of every run of every operation is
then a matter of cases.
-/

namespace Catalogue

/-- The value of an outcome, or the fault that decided it. -/
def Outcome.result {α : Type} : Outcome α → Except Fault α
  | .ok served => .ok served.value
  | .error failure => .error failure.critical

/-- What an operation makes of the answer of the store that decides it. -/
def decided {α : Type} (answer : Except StoreError α) : Except Fault α :=
  answer.mapError Fault.ofStore

/-- Whether a text may be taken for dropped. -/
def IsDropped (answer : Except CacheError Unit) : Prop :=
  ∀ message, answer ≠ .error (.internal message)

/-- **All that an operation can do**: the calls it makes, with their answers, and its result. -/
inductive Operation.Course : (operation : Operation) → List Answered →
    Except Fault operation.Value → Prop
  /-- The text was in the cache. -/
  | hit (id : Int64) (text : String) :
      Course (.fetch id) [⟨.cache (.get id), .ok text⟩] (.ok text)
  /-- The store did not give the row either. -/
  | lost (id : Int64) (miss : CacheError) (e : StoreError) :
      Course (.fetch id) [⟨.cache (.get id), .error miss⟩, ⟨.store (.find id), .error e⟩]
        (.error (.ofStore e))
  /-- The store gave the row, which the cache took or not. -/
  | found (id : Int64) (miss : CacheError) (row : Product) (taken : Except CacheError Unit) :
      Course (.fetch id)
        [⟨.cache (.get id), .error miss⟩, ⟨.store (.find id), .ok row⟩, ⟨.cache (.set row), taken⟩]
        (.ok row.encode)
  | list (answer : Except StoreError (List Product)) :
      Course .list [⟨.store .list, answer⟩] (decided answer)
  | page (window : Window) (answer : Except StoreError (List Product)) :
      Course (.page window) [⟨.store (.page window), answer⟩] (decided answer)
  | created (draft : Draft) (id : Int64) (taken : Except CacheError Unit) :
      Course (.create draft)
        [⟨.store (.insert draft), .ok id⟩, ⟨.cache (.set (draft.withId id)), taken⟩] (.ok id)
  | notCreated (draft : Draft) (e : StoreError) :
      Course (.create draft) [⟨.store (.insert draft), .error e⟩] (.error (.ofStore e))
  /-- The text might still be there, so the row is kept. -/
  | updateKept (id : Int64) (draft : Draft) (message : String) :
      Course (.update id draft) [⟨.cache (.delete id), .error (.internal message)⟩]
        (.error (.ofCache (.internal message)))
  | updated (id : Int64) (draft : Draft) {dropped : Except CacheError Unit}
      (h : IsDropped dropped) (answer : Except StoreError Product) :
      Course (.update id draft)
        [⟨.cache (.delete id), dropped⟩, ⟨.store (.update id draft), answer⟩] (decided answer)
  | deleteKept (id : Int64) (message : String) :
      Course (.delete id) [⟨.cache (.delete id), .error (.internal message)⟩]
        (.error (.ofCache (.internal message)))
  | deleted (id : Int64) {dropped : Except CacheError Unit} (h : IsDropped dropped)
      (answer : Except StoreError Product) :
      Course (.delete id) [⟨.cache (.delete id), dropped⟩, ⟨.store (.delete id), answer⟩]
        (decided answer)
  | allKept (e : CacheError) :
      Course .deleteAll [⟨.cache .clear, .error e⟩] (.error (.ofCache e))
  | allDeleted (answer : Except StoreError Nat) :
      Course .deleteAll [⟨.cache .clear, .ok ()⟩, ⟨.store .purge, answer⟩] (decided answer)
  | ping (answer : Except StoreError Unit) :
      Course .ping [⟨.store .ping, answer⟩] (decided answer)

/-- The operation takes one of its courses, with whatever warnings. -/
abbrev Operation.Runs (operation : Operation) (made : List Answered)
    (outcome : Outcome operation.Value) : Prop := operation.Course made outcome.result

namespace Service

theorem result_degraded {α : Type} (earlier : List Fault) (answer : Except StoreError α) :
    (degraded earlier answer).result = decided answer := by
  cases answer <;> rfl

theorem fetchFromStore_course (requestId : String) (id : Int64) (miss : CacheError)
    (earlier : List Fault) :
    (fetchFromStore requestId id earlier).Ensures fun made outcome =>
      (Operation.fetch id).Course (⟨.cache (.get id), .error miss⟩ :: made) outcome.result := by
  unfold fetchFromStore
  rw [Program.ensures_store_bind]
  rintro (e | row)
  · exact .lost id miss e
  · show (Program.cache (.set row) >>= _).Ensures _
    rw [Program.ensures_cache_bind]
    rintro (e | _)
    · exact .found id miss row (.error e)
    · exact .found id miss row (.ok ())

theorem fetch_course (requestId : String) (id : Int64) :
    (fetch requestId id).Ensures (Operation.fetch id).Runs := by
  unfold fetch
  rw [Program.ensures_cache_bind]
  rintro ((missing | message) | text)
  · exact fetchFromStore_course requestId id (.notFound missing) []
  · exact fetchFromStore_course requestId id (.internal message) [.ofCache (.internal message)]
  · exact .hit id text

theorem list_course : list.Ensures Operation.list.Runs := by
  unfold list
  rw [Program.ensures_store_bind]
  rintro (e | rows)
  · exact .list (.error e)
  · exact .list (.ok rows)

theorem page_course (window : Window) :
    (page window).Ensures (Operation.page window).Runs := by
  unfold page
  rw [Program.ensures_store_bind]
  rintro (e | rows)
  · exact .page window (.error e)
  · exact .page window (.ok rows)

theorem create_course (requestId : String) (draft : Draft) :
    (create requestId draft).Ensures (Operation.create draft).Runs := by
  unfold create
  rw [Program.ensures_store_bind]
  rintro (e | id)
  · exact .notCreated draft e
  · show (Program.cache (.set (draft.withId id)) >>= _).Ensures _
    rw [Program.ensures_cache_bind]
    rintro (e | _)
    · exact .created draft id (.error e)
    · exact .created draft id (.ok ())

/-- A change of a row takes the course of the change once the text is dropped. -/
theorem replace_course (id : Int64) (change : Program (Except StoreError Product))
    {Q : List Answered → Except Fault Product → Prop}
    (hkept : ∀ message, Q [⟨.cache (.delete id), .error (.internal message)⟩]
      (.error (.ofCache (.internal message))))
    (hchange : ∀ dropped, IsDropped dropped → change.Ensures fun made answer =>
      Q (⟨.cache (.delete id), dropped⟩ :: made) (decided answer)) :
    (replace id change).Ensures fun made outcome => Q made outcome.result := by
  have hconclude : ∀ dropped earlier, IsDropped dropped →
      (conclude earlier change).Ensures fun made outcome =>
        Q (⟨.cache (.delete id), dropped⟩ :: made) outcome.result := by
    intro dropped earlier hdropped
    unfold conclude
    rw [Program.ensures_bind]
    refine (hchange dropped hdropped).mono fun made answer hQ => ?_
    show Q (_ :: (made ++ [])) (degraded earlier answer).result
    rw [List.append_nil, result_degraded]
    exact hQ
  rw [replace_eq, Program.ensures_cache_bind]
  rintro ((missing | message) | _)
  · exact hconclude (.error (.notFound missing)) _ nofun
  · exact hkept message
  · exact hconclude (.ok ()) _ nofun

theorem deleteAll_course (requestId : String) :
    (deleteAll requestId).Ensures Operation.deleteAll.Runs := by
  unfold deleteAll
  rw [Program.ensures_cache_bind]
  rintro (e | _)
  · exact .allKept e
  · show (Program.store .purge >>= _).Ensures _
    rw [Program.ensures_store_bind]
    rintro (e | count)
    · exact .allDeleted (.error e)
    · exact .allDeleted (.ok count)

end Service

theorem Operation.runs (requestId : String) (operation : Operation) :
    (operation.program requestId).Ensures operation.Runs := by
  cases operation with
  | fetch id => exact Service.fetch_course requestId id
  | list => exact Service.list_course
  | page window => exact Service.page_course window
  | create draft => exact Service.create_course requestId draft
  | update id draft =>
    refine Service.replace_course id _ (.updateKept id draft) ?_
    exact fun dropped hdropped answer => .updated id draft hdropped answer
  | delete id =>
    refine Service.replace_course id _ (.deleteKept id) ?_
    exact fun dropped hdropped answer => .deleted id hdropped answer
  | deleteAll => exact Service.deleteAll_course requestId
  | ping =>
    rintro (e | _)
    · exact .ping (.error e)
    · exact .ping (.ok ())

end Catalogue
