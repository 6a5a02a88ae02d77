import Catalogue.Proofs.Pool

/-!
# What operations ask and tell

Each operation has a few calls of its own, all about one product unless it is about none or about
all. Which product goes into the cache, and what a fetch tells, depends on what calls before were
answered; so these are vouched for as far as the answers are (`Operation.upholds`).

An answer is *truthful* about a set of products if every product that it shows, as a row, as a text
or as a row that was just inserted, is in the set and has the identifier that was asked for. The
backends answer truthfully as long as the set has all their rows and the products of all cached
texts (`Backends.truthful_of_takes`), whichever identifiers new rows get.
-/

namespace Catalogue

/-- As long as calls are answered as `rely` has it, `P` holds of every call from here on, and `Q` of
the value at the end. -/
def Program.Upholds {α : Type} (rely : (call : Call) → call.Answer → Prop) (P : Call → Prop)
    (Q : α → Prop) : Program α → Prop
  | .done value => Q value
  | .ask call next => P call ∧ ∀ answer, rely call answer → (next answer).Upholds rely P Q
  | .log _ rest => rest.Upholds rely P Q

section

variable (held : Product → Prop)

/-- The text is that of a product with an identifier. -/
def Vouches (id : Int64) (text : String) : Prop :=
  ∃ product, held product ∧ product.id = id ∧ text = product.encode

/-- The products that an answer shows are held, and have the identifier that was asked for. -/
def Truthful : (call : Call) → call.Answer → Prop
  | .cache (.get id), answer => ∀ text, answer = .ok text → Vouches held id text
  | .store (.find id), answer => ∀ product, answer = .ok product → held product ∧ product.id = id
  | .store (.insert draft), answer => ∀ id, answer = .ok id → held (draft.withId id)
  | _, _ => True

/-- **The calls of an operation.** Only products that are held go into the cache. -/
inductive Operation.MayAsk : Operation → Call → Prop
  | look (id : Int64) : MayAsk (.fetch id) (.cache (.get id))
  | find (id : Int64) : MayAsk (.fetch id) (.store (.find id))
  | refill {id : Int64} {product : Product} : held product → product.id = id →
      MayAsk (.fetch id) (.cache (.set product))
  | list : MayAsk .list (.store .list)
  | page (window : Window) : MayAsk (.page window) (.store (.page window))
  | insert (draft : Draft) : MayAsk (.create draft) (.store (.insert draft))
  | fill {draft : Draft} {id : Int64} : held (draft.withId id) →
      MayAsk (.create draft) (.cache (.set (draft.withId id)))
  | dropForUpdate (id : Int64) (draft : Draft) : MayAsk (.update id draft) (.cache (.delete id))
  | update (id : Int64) (draft : Draft) : MayAsk (.update id draft) (.store (.update id draft))
  | dropForDelete (id : Int64) : MayAsk (.delete id) (.cache (.delete id))
  | delete (id : Int64) : MayAsk (.delete id) (.store (.delete id))
  | clear : MayAsk .deleteAll (.cache .clear)
  | purge : MayAsk .deleteAll (.store .purge)
  | ping : MayAsk .ping (.store .ping)

/-- What an operation tells: a fetch that succeeds gives the text of a product that is held. -/
def Operation.MayTell : (operation : Operation) → Outcome operation.Value → Prop
  | .fetch id, outcome => ∀ served, outcome = .ok served → Vouches held id served.value
  | _, _ => True

end

variable {α : Type} {held : Product → Prop}

/-! ### Programs -/

namespace Program

variable {rely : (call : Call) → call.Answer → Prop} {P : Call → Prop} {Q : α → Prop}

theorem upholds_silent (program : Program α) :
    program.silent.Upholds rely P Q ↔ program.Upholds rely P Q := by
  induction program with
  | done value => exact Iff.rfl
  | ask call next => exact Iff.rfl
  | log event rest ih => exact ih

theorem upholds_cache_bind {call : CacheCall} {f : Except CacheError call.Value → Program α} :
    (cache call >>= f).Upholds rely P Q ↔
      P (.cache call) ∧ ∀ answer, rely (.cache call) answer → (f answer).Upholds rely P Q := Iff.rfl

theorem upholds_store_bind {call : StoreCall} {f : Except StoreError call.Value → Program α} :
    (store call >>= f).Upholds rely P Q ↔
      P (.store call) ∧ ∀ answer, rely (.store call) answer → (f answer).Upholds rely P Q := Iff.rfl

end Program

/-! ### Operations -/

namespace Service

open Program

theorem fetchFromStore_upholds (requestId : String) (id : Int64) (earlier : List Fault) :
    (fetchFromStore requestId id earlier).Upholds (Truthful held)
      ((Operation.fetch id).MayAsk held) ((Operation.fetch id).MayTell held) := by
  unfold fetchFromStore
  rw [upholds_store_bind]
  refine ⟨.find id, ?_⟩
  rintro (e | product) hanswer
  · exact nofun
  · obtain ⟨hheld, hid⟩ := hanswer product rfl
    have htell : ∀ warnings,
        (Operation.fetch id).MayTell held (.ok ⟨product.encode, warnings⟩) := by
      rintro warnings _ ⟨⟩
      exact ⟨product, hheld, hid, rfl⟩
    show (cache (.set product) >>= _).Upholds _ _ _
    rw [upholds_cache_bind]
    refine ⟨.refill hheld hid, ?_⟩
    rintro (e | _) -
    · exact htell _
    · exact htell _

theorem fetch_upholds (requestId : String) (id : Int64) :
    (fetch requestId id).Upholds (Truthful held)
      ((Operation.fetch id).MayAsk held) ((Operation.fetch id).MayTell held) := by
  unfold fetch
  rw [upholds_cache_bind]
  refine ⟨.look id, ?_⟩
  rintro ((missing | message) | text) hanswer
  · exact fetchFromStore_upholds ..
  · exact fetchFromStore_upholds ..
  · rintro _ ⟨⟩
    exact hanswer text rfl

theorem create_upholds (requestId : String) (draft : Draft) :
    (create requestId draft).Upholds (Truthful held)
      ((Operation.create draft).MayAsk held) ((Operation.create draft).MayTell held) := by
  unfold create
  rw [upholds_store_bind]
  refine ⟨.insert draft, ?_⟩
  rintro (e | id) hanswer
  · exact trivial
  · show (cache (.set (draft.withId id)) >>= _).Upholds _ _ _
    rw [upholds_cache_bind]
    refine ⟨.fill (hanswer id rfl), ?_⟩
    rintro (e | _) - <;> exact trivial

/-- A change of a row drops the text and then is asked for. -/
theorem replace_upholds {rely : (call : Call) → call.Answer → Prop} {P : Call → Prop} {id : Int64}
    {change : Program (Except StoreError Product)}
    (hdrop : P (.cache (.delete id)))
    (hchange : ∀ earlier, (conclude earlier change).Upholds rely P fun _ => True) :
    (replace id change).Upholds rely P fun _ => True := by
  rw [replace_eq, upholds_cache_bind]
  refine ⟨hdrop, ?_⟩
  rintro ((missing | message) | _) -
  · exact hchange _
  · exact trivial
  · exact hchange _

theorem deleteAll_upholds (requestId : String) :
    (deleteAll requestId).Upholds (Truthful held)
      (Operation.deleteAll.MayAsk held) (Operation.deleteAll.MayTell held) := by
  unfold deleteAll
  rw [upholds_cache_bind]
  refine ⟨.clear, ?_⟩
  rintro (e | _) -
  · exact trivial
  · show (store .purge >>= _).Upholds _ _ _
    rw [upholds_store_bind]
    refine ⟨.purge, ?_⟩
    rintro (e | count) - <;> exact trivial

end Service

/-- **An operation asks nothing but its own calls**, and as long as it is answered truthfully, it
puts nothing into the cache and tells nothing but products that are held. -/
theorem Operation.upholds (held : Product → Prop) (requestId : String) (operation : Operation) :
    (operation.program requestId).Upholds (Truthful held) (operation.MayAsk held)
      (operation.MayTell held) := by
  cases operation with
  | fetch id => exact Service.fetch_upholds requestId id
  | create draft => exact Service.create_upholds requestId draft
  | update id draft =>
    exact Service.replace_upholds (.dropForUpdate id draft)
      fun _ => ⟨.update id draft, fun _ _ => trivial⟩
  | delete id =>
    exact Service.replace_upholds (.dropForDelete id) fun _ => ⟨.delete id, fun _ _ => trivial⟩
  | deleteAll => exact Service.deleteAll_upholds requestId
  | list =>
    refine ⟨.list, ?_⟩
    rintro (e | rows) - <;> exact trivial
  | page window =>
    refine ⟨.page window, ?_⟩
    rintro (e | rows) - <;> exact trivial
  | ping =>
    refine ⟨.ping, ?_⟩
    rintro (e | _) - <;> exact trivial

theorem Operation.MayAsk.held_of_set {operation : Operation} {product : Product}
    (h : operation.MayAsk held (.cache (.set product))) : held product := by
  cases h with
  | refill hheld hid => exact hheld
  | fill hheld => exact hheld

/-! ### Answers -/

namespace Backends

/-- All rows are held, and every cached text is that of a product that is held. -/
structure Vouched (held : Product → Prop) (s : Backends) : Prop where
  rows : ∀ id row, s.table.row? id = some row → held row
  texts : ∀ entry ∈ s.cache.entries, Vouches held entry.1 entry.2

variable {s after : Backends} {call : Call} {answer : call.Answer}

/-- **The backends answer truthfully** about what they hold. -/
theorem truthful_of_takes (hs : s.Vouched held)
    (hafter : ∀ id row, after.table.row? id = some row → held row)
    (h : s.Takes call answer after) : Truthful held call answer := by
  unfold Truthful
  split
  · rintro text rfl
    exact hs.texts _ (Cache.mem_of_get (congrArg Prod.fst h.1))
  · rintro product rfl
    have hrow := Table.find_eq_ok_iff.1 h.1.1.symm
    exact ⟨hs.rows _ product hrow, Table.id_of_row? hrow⟩
  · rintro id rfl
    obtain ⟨⟨fresh, hid, htable⟩, -⟩ := h
    cases hid
    refine hafter id _ ?_
    rw [htable]
    simp [Draft.withId]
  · trivial

end Backends

/-- The call is answered with an error. -/
def Errs : (call : Call) → call.Answer → Prop
  | .cache _, answer => ∃ e, answer = .error e
  | .store _, answer => ∃ e, answer = .error e

section

variable {call : Call} {answer : call.Answer}

theorem errs_of_fails (h : Fails call answer) : Errs call answer := by
  cases call with
  | cache call =>
    obtain ⟨message, rfl⟩ := h
    exact ⟨_, rfl⟩
  | store call =>
    rcases h with rfl | ⟨message, rfl⟩
    · exact ⟨_, rfl⟩
    · exact ⟨_, rfl⟩

theorem truthful_of_errs (h : Errs call answer) : Truthful held call answer := by
  unfold Truthful
  split
  · obtain ⟨e, rfl⟩ := h
    exact nofun
  · obtain ⟨e, rfl⟩ := h
    exact nofun
  · obtain ⟨e, rfl⟩ := h
    exact nofun
  · trivial

end

/-! ### Operations in progress -/

namespace Running

/-- What is left of an operation asks and tells as the operation may. -/
def Upholds (held : Product → Prop) (r : Running) : Prop :=
  r.rest.Upholds (Truthful held) (r.operation.MayAsk held) (r.operation.MayTell held)

theorem Upholds.mayAsk {r : Running} {call : Call} (h : r.Upholds held) (hcall : r.Awaits call) :
    r.operation.MayAsk held call := by
  obtain ⟨next, hnext⟩ := hcall
  have h := (Program.upholds_silent _).2 h
  rw [hnext] at h
  exact h.1

theorem Upholds.mayTell {operation : Operation} {rest : Program (Outcome operation.Value)}
    {outcome : Outcome operation.Value} (h : Upholds held ⟨operation, rest⟩)
    (hend : rest.silent = .done outcome) : operation.MayTell held outcome := by
  have h := (Program.upholds_silent _).2 h
  rw [hend] at h
  exact h

end Running

namespace Pool

/-- One of the operations is about to make a call, and goes on with the answer. -/
inductive Hears {call : Call} (answer : call.Answer) : List Running → List Running → Prop
  | turn {running : List Running} {operation : Operation}
      {rest : Program (Outcome operation.Value)}
      {next : call.Answer → Program (Outcome operation.Value)} (i : Nat) :
      running[i]? = some ⟨operation, rest⟩ → rest.silent = .ask call next →
        Hears answer running (running.set i ⟨operation, next answer⟩)

variable {call : Call} {answer : call.Answer} {running after : List Running}

theorem Step.exists_hears {pool after : Pool} (h : pool.Step after) :
    ∃ call answer, pool.backends.Serves call answer after.backends ∧
      Hears answer pool.running after.running := by
  obtain ⟨i, hi, hturn⟩ := h
  obtain ⟨hsilent, hserves⟩ := hturn
  exact ⟨_, _, hserves, .turn i hi hsilent⟩

theorem Hears.exists_awaits (h : Hears answer running after) :
    ∃ r ∈ running, r.Awaits call := by
  obtain ⟨i, hi, hsilent⟩ := h
  exact ⟨_, List.mem_of_getElem? hi, _, hsilent⟩

theorem upholds_start (capacity : Nat) (table : Table) (operations : List (String × Operation)) :
    ∀ r ∈ (start capacity table operations).running, r.Upholds held := by
  intro r hr
  obtain ⟨⟨requestId, operation⟩, -, rfl⟩ := List.mem_map.1 hr
  exact operation.upholds held requestId

/-- A truthful answer leaves all operations as they should be. -/
theorem Hears.upholds (h : Hears answer running after) (hanswer : Truthful held call answer)
    (hall : ∀ r ∈ running, r.Upholds held) : ∀ r ∈ after, r.Upholds held := by
  obtain ⟨i, hi, hsilent⟩ := h
  rename_i operation rest next
  intro r hr
  rcases List.mem_or_eq_of_mem_set hr with hr | rfl
  · exact hall r hr
  · have hturn := (Program.upholds_silent rest).2 (hall _ (List.mem_of_getElem? hi))
    rw [hsilent] at hturn
    exact hturn.2 answer hanswer

end Pool

end Catalogue
