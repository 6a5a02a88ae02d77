import Catalogue.Proofs.Backends
import Mathlib.Logic.Relation

/-!
# Operations at the same time

Operations in progress share healthy backends and take turns, one backend call a turn
(`Pool.Step`). Nothing keeps two of them apart: the service holds no lock across its calls.

A product may therefore get into the cache after its row was changed, or its row may be changed
after it got there, and then a wrong text stays in the cache when all is done. Both need a moment
when one operation is about to put a product into the cache and another is about to change the row
to something else. Without such a *clash* at an identifier the cache is coherent there all the time
(`Pool.orderly_of_run`), and from any clash it can be led astray
(`Pool.exists_incoherent_of_clash`).
-/

namespace Catalogue

/-- An operation in progress. -/
structure Running where
  operation : Operation
  rest : Program (Outcome operation.Value)

namespace Running

/-- The operation is about to make a call. -/
def Awaits (r : Running) (call : Call) : Prop := ∃ next, r.rest.silent = .ask call next

/-- The operation has ended. -/
def Ended (r : Running) : Prop := ∃ outcome, r.rest.silent = .done outcome

/-- An operation makes its next call. -/
inductive Step : Running → Backends → Running → Backends → Prop
  | call {operation : Operation} {rest : Program (Outcome operation.Value)} {call : Call}
      {next : call.Answer → Program (Outcome operation.Value)} {s after : Backends}
      {answer : call.Answer} :
      rest.silent = .ask call next → s.Serves call answer after →
        Step ⟨operation, rest⟩ s ⟨operation, next answer⟩ after

end Running

/-- Operations in progress, and the backends that they share. -/
structure Pool where
  running : List Running
  backends : Backends

namespace Pool

/-- Nothing has been done yet, and nothing is cached. -/
def start (capacity : Nat) (table : Table) (operations : List (String × Operation)) : Pool :=
  ⟨operations.map fun (requestId, operation) => ⟨operation, operation.program requestId⟩,
    ⟨table, Cache.empty capacity⟩⟩

/-- One of the operations takes a turn. -/
inductive Step : Pool → Pool → Prop
  | turn {running : List Running} {s after : Backends} {r r' : Running} (i : Nat) :
      running[i]? = some r → r.Step s r' after → Step ⟨running, s⟩ ⟨running.set i r', after⟩

/-- All operations have ended. -/
def Finished (pool : Pool) : Prop := ∀ r ∈ pool.running, r.Ended

/-- One operation is about to put a product into the cache, and another is about to change the row
to something else. -/
def Clash (pool : Pool) (id : Int64) : Prop :=
  ∃ a ∈ pool.running, ∃ b ∈ pool.running, ∃ refill change,
    a.Awaits refill ∧ b.Awaits change ∧ refill.Clashes id change

/-- One of the operations takes a turn, and there is no clash. -/
def CalmStep (id : Int64) (pool after : Pool) : Prop := pool.Step after ∧ ¬ pool.Clash id

end Pool

/-! ### What every operation keeps -/

variable {id : Int64}

/-- An operation keeps the rules of the service, and its next call is ready. -/
structure Running.Poised (r : Running) (s : Backends) (id : Int64) : Prop where
  warranted : ∃ before, r.rest.Warranted before
  ready : ∀ call, r.Awaits call → s.ReadyAt id call

/-- If what is warranted next is ready, then so is the operation. -/
theorem Running.poised_of_warranted {r : Running} {s : Backends} {before : Option Answered}
    (h : r.rest.Warranted before) (hs : ∀ call, Warrants before call → s.ReadyAt id call) :
    r.Poised s id := by
  refine ⟨⟨before, h⟩, ?_⟩
  rintro call ⟨next, hnext⟩
  rw [← Program.warranted_silent, hnext] at h
  exact hs call h.1

namespace Pool

/-- The cache is coherent at an identifier, and all operations are poised there. -/
structure Orderly (pool : Pool) (id : Int64) : Prop where
  coherent : pool.backends.CoherentAt id
  poised : ∀ r ∈ pool.running, r.Poised pool.backends id

theorem orderly_start (capacity : Nat) (table : Table) (operations : List (String × Operation))
    (id : Int64) : (start capacity table operations).Orderly id := by
  refine ⟨Backends.coherent_iff.1 (Backends.coherent_empty table capacity) id, ?_⟩
  intro r hr
  obtain ⟨⟨requestId, operation⟩, -, rfl⟩ := List.mem_map.1 hr
  refine Running.poised_of_warranted (operation.warranted requestId) fun call hcall => ?_
  refine Backends.readyAt_of_fails _ id ?_ hcall
  rintro _ ⟨⟩

/-- A turn keeps the pool orderly unless there is a clash. -/
theorem Step.orderly {pool after : Pool} (h : pool.Step after) (hpool : pool.Orderly id)
    (hclash : ¬ pool.Clash id) : after.Orderly id := by
  obtain ⟨i, hi, hturn⟩ := h
  obtain ⟨hsilent, hserves⟩ := hturn
  rename_i running s after operation rest call next answer
  have hmem := List.mem_of_getElem? hi
  obtain ⟨⟨before, hwarranted⟩, hready⟩ := hpool.poised _ hmem
  refine ⟨Backends.coherentAt_of_serves hpool.coherent (hready call ⟨next, hsilent⟩) hserves, ?_⟩
  intro r hr
  rcases List.mem_or_eq_of_mem_set hr with hr | rfl
  · -- everyone else stays poised, since nobody clashes with the one whose turn it is
    obtain ⟨hrules, hothers⟩ := hpool.poised r hr
    refine ⟨hrules, fun mine hmine => (hothers mine hmine).of_serves hserves ?_ ?_⟩
    · exact fun hc => hclash ⟨r, hr, _, hmem, mine, call, hmine, ⟨next, hsilent⟩, hc⟩
    · exact fun hc => hclash ⟨_, hmem, r, hr, call, mine, ⟨next, hsilent⟩, hmine, hc⟩
  · rw [← Program.warranted_silent, hsilent] at hwarranted
    exact Running.poised_of_warranted (hwarranted.2 answer) fun c hc =>
      Backends.readyAt_of_warrants id hserves hc

/-- A run without a clash stays orderly. -/
theorem orderly_of_run {first pool : Pool} (hfirst : first.Orderly id)
    (h : Relation.ReflTransGen (CalmStep id) first pool) :
    pool.Orderly id := by
  induction h with
  | refl => exact hfirst
  | tail _ hstep ih => exact hstep.1.orderly ih hstep.2

/-! ### Clashes -/

/-- An operation that is about to make a call makes it when it is answered. -/
theorem exists_step {pool : Pool} {i : Nat} {r : Running} {call : Call} {answer : call.Answer}
    {after : Backends} (hr : pool.running[i]? = some r) (hcall : r.Awaits call)
    (h : pool.backends.Serves call answer after) :
    ∃ r', pool.Step ⟨pool.running.set i r', after⟩ := by
  obtain ⟨next, hnext⟩ := hcall
  exact ⟨_, .turn i hr (.call hnext h)⟩

/-- If one operation puts the product into the cache and the other changes the row behind it, a
wrong text is left behind. -/
theorem exists_incoherent_of_clash {pool : Pool} (h : pool.Clash id) :
    ∃ after, Relation.ReflTransGen Step pool after ∧ ¬ after.backends.CoherentAt id := by
  obtain ⟨a, ha, b, hb, _, change, hrefill, hchange, product, rfl, rfl, hid, hother⟩ := h
  obtain ⟨i, hi⟩ := List.mem_iff_getElem?.1 ha
  obtain ⟨j, hj⟩ := List.mem_iff_getElem?.1 hb
  obtain call | call := change
  · exact hid.elim
  -- the two are not the same, since one asks the cache and the other the store
  have hne : i ≠ j := by
    rintro rfl
    obtain rfl : a = b := Option.some.inj (hi.symm.trans hj)
    obtain ⟨next, hnext⟩ := hrefill
    obtain ⟨other, hsame⟩ := hchange
    cases hnext.symm.trans hsame
  let filled : Backends := ⟨pool.backends.table, (pool.backends.cache.set product).2⟩
  have hset : pool.backends.Serves (.cache (.set product)) (.ok ()) filled := ⟨rfl, rfl⟩
  obtain ⟨a', hfirst⟩ := exists_step hi hrefill hset
  have hj' : (Pool.mk (pool.running.set i a') filled).running[j]? = some b := by
    rwa [List.getElem?_set_ne hne]
  let served := pool.backends.table.answer 0 call
  have hserved : filled.Serves (.store call) served.1 ⟨served.2, filled.cache⟩ := by
    refine ⟨Table.serves_answer 0 _ call ?_, rfl⟩
    rintro draft rfl
    exact False.elim hid
  obtain ⟨b', hsecond⟩ := exists_step hj' hchange hserved
  refine ⟨_, .tail (.single hfirst) hsecond, fun hcoherent => hother ?_⟩
  obtain ⟨row, hrow, htext⟩ := hcoherent product.encode (Cache.mem_set_self _ product)
  exact htext ▸ hserved.writes_of_changes hid hrow

/-- **Without a clash nothing goes wrong, and any clash can.** On any rows, with an empty cache of
any capacity and whatever operations run at the same time in whatever turns: as long as there has
been no clash at an identifier, the cache is coherent there at every moment; and from every clash
there are turns behind which it is not. -/
theorem coherentAt_unless_clash (capacity : Nat) (table : Table)
    (operations : List (String × Operation)) (id : Int64) :
    (∀ pool, Relation.ReflTransGen (CalmStep id) (start capacity table operations) pool →
      pool.backends.CoherentAt id) ∧
    ∀ pool, Relation.ReflTransGen Step (start capacity table operations) pool → pool.Clash id →
      ∃ after, Relation.ReflTransGen Step pool after ∧ ¬ after.backends.CoherentAt id :=
  ⟨fun _ h => (orderly_of_run (orderly_start capacity table operations id) h).coherent,
    fun _ _ h => exists_incoherent_of_clash h⟩

/-! ### A product is read while it is changed -/

/-- The row at the beginning. -/
def greenTea : Product := ⟨1, "tea", "green"⟩

/-- What is to become of it. -/
def blackTea : Draft := ⟨"tea", "black"⟩

/-- The rows at the beginning. -/
def greenTable : Table := ⟨[greenTea], List.pairwise_singleton _ _⟩

/-- The rows behind the change. -/
def blackTable : Table := greenTable.replace (blackTea.withId 1)

/-- The cache behind a look-up that found nothing. -/
def missed : Cache := { capacity := 1, misses := 1 }

/-- One operation reads the product, another changes it. -/
def teaPool : Pool := start 1 greenTable [("a", .fetch 1), ("b", .update 1 blackTea)]

variable {table : Table}

theorem serves_miss : Backends.Serves ⟨table, Cache.empty 1⟩ (.cache (.get 1))
    (.error (.notFound 1)) ⟨table, missed⟩ := ⟨rfl, rfl⟩

theorem serves_drop : Backends.Serves ⟨table, missed⟩ (.cache (.delete 1))
    (.error (.notFound 1)) ⟨table, missed⟩ := ⟨rfl, rfl⟩

theorem serves_green : Backends.Serves ⟨greenTable, missed⟩ (.store (.find 1)) (.ok greenTea)
    ⟨greenTable, missed⟩ := ⟨⟨rfl, rfl⟩, rfl⟩

theorem serves_change : Backends.Serves ⟨greenTable, missed⟩ (.store (.update 1 blackTea))
    (.ok greenTea) ⟨blackTable, missed⟩ := ⟨⟨rfl, rfl⟩, rfl⟩

theorem serves_black : Backends.Serves ⟨blackTable, missed⟩ (.store (.find 1))
    (.ok (blackTea.withId 1)) ⟨blackTable, missed⟩ := ⟨⟨rfl, rfl⟩, rfl⟩

/-- **Operations at the same time can leave a wrong text behind.** A product is read from the store,
its row is changed, and only then the product is put into the cache, where it stays when all is
done. -/
theorem not_coherent_of_race :
    ¬ ∀ (capacity : Nat) (table : Table) (operations : List (String × Operation)) (pool : Pool),
      0 < capacity → Relation.ReflTransGen Step (start capacity table operations) pool →
        pool.Finished → pool.backends.Coherent := by
  intro h
  let stale : Cache := { missed with entries := [(1, greenTea.encode)] }
  have hset : Backends.Serves ⟨blackTable, missed⟩ (.cache (.set greenTea)) (.ok ())
      ⟨blackTable, stale⟩ := ⟨rfl, rfl⟩
  let last : Pool :=
    ⟨[⟨.fetch 1, .done (.ok ⟨greenTea.encode, []⟩)⟩,
      ⟨.update 1 blackTea, .done (.ok ⟨greenTea, [.ofCache (.notFound 1)]⟩)⟩], ⟨blackTable, stale⟩⟩
  have hturns := Relation.ReflTransGen.refl (r := Step) (a := teaPool)
    |>.tail (.turn 0 rfl (.call rfl serves_miss)) |>.tail (.turn 0 rfl (.call rfl serves_green))
    |>.tail (.turn 1 rfl (.call rfl serves_drop)) |>.tail (.turn 1 rfl (.call rfl serves_change))
    |>.tail (.turn 0 rfl (.call rfl hset))
  have hrun : Relation.ReflTransGen Step teaPool last := hturns
  have hfinished : last.Finished := by
    intro r hr
    rcases List.mem_cons.1 hr with rfl | hr
    · exact ⟨_, rfl⟩
    · obtain rfl := List.mem_singleton.1 hr
      exact ⟨_, rfl⟩
  obtain ⟨row, hrow, htext⟩ := h _ _ _ _ Nat.one_pos hrun hfinished _ (List.mem_singleton.2 rfl)
  obtain rfl : blackTea.withId 1 = row := Option.some.inj hrow
  revert htext
  decide

/-- Two operations do not clash when neither is about to put a product into the cache, or neither is
about to change the row. -/
theorem not_clash_pair {x y : Running} {s : Backends} {id : Int64}
    (h : (∀ product, ¬ x.Awaits (.cache (.set product)) ∧ ¬ y.Awaits (.cache (.set product))) ∨
      ∀ call, call.Changes id → ¬ x.Awaits call ∧ ¬ y.Awaits call) :
    ¬ (Pool.mk [x, y] s).Clash id := by
  rintro ⟨a, ha, b, hb, _, change, hrefill, hawaits, product, rfl, -, hchange, -⟩
  have hpair : ∀ r ∈ [x, y], ∀ call, r.Awaits call → x.Awaits call ∨ y.Awaits call := by
    intro r hr call hcall
    rcases List.mem_cons.1 hr with rfl | hr
    · exact Or.inl hcall
    · obtain rfl := List.mem_singleton.1 hr
      exact Or.inr hcall
  rcases h with hno | hno
  · obtain ⟨hx, hy⟩ := hno product
    exact (hpair a ha _ hrefill).elim hx hy
  · obtain ⟨hx, hy⟩ := hno change hchange
    exact (hpair b hb _ hawaits).elim hx hy

/-- The row is changed before the product is read from the store, and what is read is cached; if it
is read before, the two clash. -/
theorem coherentAt_unless_clash_tea :
    (∃ pool, Relation.ReflTransGen (CalmStep 1) teaPool pool ∧
      pool.backends.cache.entries = [(1, (blackTea.withId 1).encode)] ∧
        pool.backends.CoherentAt 1) ∧
    ∃ pool, Relation.ReflTransGen Step teaPool pool ∧ pool.Clash 1 ∧
      ∃ after, Relation.ReflTransGen Step pool after ∧ ¬ after.backends.CoherentAt 1 := by
  have hall := coherentAt_unless_clash 1 greenTable
    [("a", .fetch 1), ("b", .update 1 blackTea)] 1
  constructor
  · let fresh : Cache := { missed with entries := [(1, (blackTea.withId 1).encode)] }
    have hset : Backends.Serves ⟨blackTable, missed⟩ (.cache (.set (blackTea.withId 1))) (.ok ())
        ⟨blackTable, fresh⟩ := ⟨rfl, rfl⟩
    have hturns := Relation.ReflTransGen.refl (r := CalmStep 1) (a := teaPool)
      |>.tail ⟨.turn 0 rfl (.call rfl serves_miss), not_clash_pair (.inl fun _ => ⟨nofun, nofun⟩)⟩
      |>.tail ⟨.turn 1 rfl (.call rfl serves_drop), not_clash_pair (.inl fun _ => ⟨nofun, nofun⟩)⟩
      |>.tail ⟨.turn 1 rfl (.call rfl serves_change), not_clash_pair (.inl fun _ => ⟨nofun, nofun⟩)⟩
      |>.tail ⟨.turn 0 rfl (.call rfl serves_black), not_clash_pair (.inl fun _ => ⟨nofun, nofun⟩)⟩
      |>.tail ⟨.turn 0 rfl (.call rfl hset), not_clash_pair (.inr fun call hc => by
          constructor
          · rintro ⟨next, ⟨⟩⟩
            exact hc
          · rintro ⟨next, ⟨⟩⟩)⟩
    exact ⟨_, hturns, rfl, hall.1 _ hturns⟩
  · have hturns := Relation.ReflTransGen.refl (r := Step) (a := teaPool)
      |>.tail (.turn 0 rfl (.call rfl serves_miss)) |>.tail (.turn 0 rfl (.call rfl serves_green))
      |>.tail (.turn 1 rfl (.call rfl serves_drop))
    refine ⟨_, hturns, ?hclash, hall.2 _ hturns ?hclash⟩
    refine ⟨_, List.mem_of_getElem? (i := 0) rfl, _, List.mem_of_getElem? (i := 1) rfl,
      .cache (.set greenTea), .store (.update 1 blackTea), ⟨_, rfl⟩, ⟨_, rfl⟩, greenTea, rfl, rfl,
      rfl, ?_⟩
    rintro ⟨draft, hsame, htext⟩
    cases hsame
    revert htext
    decide

end Pool

end Catalogue
