import Catalogue.Proofs.Vouched
import Mathlib.Data.List.Pairwise

/-!
# Operations that keep apart

Operations at the same time leave the cache coherent if no two of them are ever in flight about the
same product (`Pool.coherent_while_apart`). About different products they may take turns as they
like, and push each other's texts out of the cache.

The reason is that there is no clash then (`Pool.Apart.not_clash`): an operation that is about to
put a product into the cache has read or inserted the row before, and one that is about to change
the row has dropped the text before, so both are in flight. What a call is about is known from what
its operation may ask (`Operation.upholds`).
-/

namespace Catalogue

namespace Operation

/-- The products that an operation may turn out to be about. -/
def Concerns : Operation → Int64 → Prop
  | .fetch k, id | .update k _, id | .delete k, id => k = id
  | .create _, _ | .deleteAll, _ => True
  | .list, _ | .page _, _ | .ping, _ => False

/-- Two operations that can never be about the same product. -/
def Unrelated (operation other : Operation) : Prop :=
  ∀ id, ¬ (operation.Concerns id ∧ other.Concerns id)

end Operation

namespace Running

/-- The operation has made a call and has not ended. -/
def InFlight (r : Running) : Prop :=
  (∀ requestId, r.rest ≠ r.operation.program requestId) ∧ ¬ r.Ended

/-- The operation is in flight, and is about a product: the one that it was asked for, the one that
it has inserted, or any if it deletes everything. -/
def Addresses (r : Running) (id : Int64) : Prop :=
  r.InFlight ∧ r.operation.Concerns id ∧
    ∀ draft, r.operation = .create draft → r.Awaits (.cache (.set (draft.withId id)))

/-- There is no product that both operations are about. -/
def Apart (r other : Running) : Prop := ∀ id, ¬ (r.Addresses id ∧ other.Addresses id)

instance : Std.Symm Apart := ⟨fun _ _ hapart id hboth => hapart id hboth.symm⟩

end Running

namespace Pool

/-- No two operations are in flight about the same product. -/
def Apart (pool : Pool) : Prop := pool.running.Pairwise Running.Apart

/-- One of the operations takes a turn, in which the call may fail without effect. -/
inductive Turn : Pool → Pool → Prop
  | served {pool after : Pool} : pool.Step after → Turn pool after
  | refused {running after : List Running} {s : Backends} {call : Call} {answer : call.Answer} :
      Fails call answer → Hears answer running after → Turn ⟨running, s⟩ ⟨after, s⟩

/-- One of the operations takes a turn, and no two of them are about the same product. -/
def ApartTurn (pool after : Pool) : Prop := pool.Turn after ∧ pool.Apart

/-- The cache is coherent, and all operations keep the rules and ask only for what they may. -/
structure Tidy (pool : Pool) : Prop where
  orderly : ∀ id, pool.Orderly id
  upholds : ∀ r ∈ pool.running, r.Upholds fun _ => True

end Pool

/-! ### Who is about a product -/

namespace Running

variable {r : Running} {call : Call} {id : Int64}

/-- An operation that is about to make a call which it cannot begin with is in flight. -/
theorem inFlight_of_awaits (hcall : r.Awaits call) (hlater : ¬ Warrants none call) :
    r.InFlight := by
  obtain ⟨next, hnext⟩ := hcall
  constructor
  · intro requestId hopening
    have hwarranted := (Program.warranted_silent _ none).2 (r.operation.warranted requestId)
    rw [← hopening, hnext] at hwarranted
    exact hlater hwarranted.1
  · rintro ⟨outcome, hend⟩
    cases hnext.symm.trans hend

/-- An operation that is about to put a product into the cache is about this product. -/
theorem Upholds.addresses_of_set {product : Product} (h : r.Upholds fun _ => True)
    (hcall : r.Awaits (.cache (.set product))) : r.Addresses product.id := by
  have hlater : ¬ Warrants none (.cache (.set product)) := by
    rintro (⟨id, ⟨⟩⟩ | ⟨draft, id, ⟨⟩, -⟩)
  refine ⟨inFlight_of_awaits hcall hlater, ?_⟩
  have hmay := h.mayAsk hcall
  obtain ⟨operation, rest⟩ := r
  cases hmay with
  | refill hheld hid => exact ⟨hid.symm, nofun⟩
  | fill hheld =>
    refine ⟨trivial, ?_⟩
    rintro _ ⟨⟩
    exact hcall

/-- An operation that is about to change a row is about its product. -/
theorem Upholds.addresses_of_changes (h : r.Upholds fun _ => True) (hcall : r.Awaits call)
    (hchange : call.Changes id) : r.Addresses id := by
  have hmay := h.mayAsk hcall
  have hdrops : ¬ Drops id none := by
    intro hdrops
    obtain ⟨answer, hanswer⟩ := hdrops.exists_answer
    cases hanswer
  have hflight : r.InFlight := by
    refine inFlight_of_awaits hcall ?_
    rcases Call.changes_cases hchange with ⟨draft, rfl⟩ | rfl | rfl
    · exact hdrops
    · exact hdrops
    · rintro ⟨⟩
  refine ⟨hflight, ?_⟩
  obtain ⟨operation, rest⟩ := r
  rcases Call.changes_cases hchange with ⟨draft, rfl⟩ | rfl | rfl
  · cases hmay
    exact ⟨rfl, nofun⟩
  · cases hmay
    exact ⟨rfl, nofun⟩
  · cases hmay
    exact ⟨trivial, nofun⟩

end Running

namespace Pool

variable {pool after : Pool} {id : Int64}

/-- Operations that keep apart do not clash. -/
theorem Apart.not_clash (h : pool.Apart) (hpool : ∀ r ∈ pool.running, r.Upholds fun _ => True) :
    ¬ pool.Clash id := by
  rintro ⟨a, ha, b, hb, _, change, hrefill, hawaits, product, rfl, rfl, hchange, -⟩
  have hne : a ≠ b := by
    rintro rfl
    obtain ⟨next, hnext⟩ := hrefill
    obtain ⟨other, hother⟩ := hawaits
    cases hnext.symm.trans hother
    exact hchange
  refine List.Pairwise.forall h ha hb hne product.id ⟨?_, ?_⟩
  · exact (hpool a ha).addresses_of_set hrefill
  · exact (hpool b hb).addresses_of_changes hawaits hchange

/-! ### One turn -/

/-- Behind a call that failed, everyone is as poised as before. -/
theorem Hears.poised_of_fails {running after : List Running} {s : Backends} {call : Call}
    {answer : call.Answer} (h : Hears answer running after) (hfail : Fails call answer)
    (hall : ∀ r ∈ running, r.Poised s id) : ∀ r ∈ after, r.Poised s id := by
  obtain ⟨i, hi, hsilent⟩ := h
  intro r hr
  rcases List.mem_or_eq_of_mem_set hr with hr | rfl
  · exact hall r hr
  · obtain ⟨⟨before, hwarranted⟩, -⟩ := hall _ (List.mem_of_getElem? hi)
    rw [← Program.warranted_silent, hsilent] at hwarranted
    refine Running.poised_of_warranted (hwarranted.2 answer) fun c hc => ?_
    refine Backends.readyAt_of_fails s id ?_ hc
    rintro _ ⟨⟩
    exact hfail

/-- Every cached text is that of some product with its identifier. -/
theorem Tidy.vouched (h : pool.Tidy) : pool.backends.Vouched fun _ => True := by
  refine ⟨fun _ _ _ => trivial, fun entry hm => ?_⟩
  obtain ⟨row, hrow, htext⟩ := (h.orderly entry.1).coherent entry.2 hm
  exact ⟨row, trivial, Table.id_of_row? hrow, htext⟩

theorem tidy_start (capacity : Nat) (table : Table) (operations : List (String × Operation)) :
    (start capacity table operations).Tidy :=
  ⟨orderly_start capacity table operations, upholds_start capacity table operations⟩

/-- A turn keeps the pool tidy if the operations keep apart. -/
theorem Turn.tidy (h : pool.Turn after) (hpool : pool.Tidy) (hapart : pool.Apart) :
    after.Tidy := by
  have hvouched := hpool.vouched
  obtain ⟨horderly, hupholds⟩ := hpool
  cases h with
  | served hstep =>
    obtain ⟨call, answer, hserves, hhears⟩ := hstep.exists_hears
    have htruthful := Backends.truthful_of_takes hvouched (fun _ _ _ => trivial) hserves.takes
    refine ⟨fun id => hstep.orderly (horderly id) (hapart.not_clash hupholds), ?_⟩
    exact hhears.upholds htruthful hupholds
  | refused hfail hhears =>
    refine ⟨fun id => ⟨(horderly id).coherent, ?_⟩, ?_⟩
    · exact hhears.poised_of_fails hfail (horderly id).poised
    · exact hhears.upholds (truthful_of_errs (errs_of_fails hfail)) hupholds

/-! ### Whole runs -/

theorem tidy_of_run {first : Pool} (hfirst : first.Tidy)
    (h : Relation.ReflTransGen ApartTurn first pool) : pool.Tidy := by
  induction h with
  | refl => exact hfirst
  | tail _ hturn ih => exact hturn.1.tidy ih hturn.2

/-- The operations are the same before and behind a turn. -/
theorem Turn.operations_eq (h : pool.Turn after) :
    after.running.map Running.operation = pool.running.map Running.operation := by
  have hset : ∀ {running after : List Running} {call : Call} {answer : call.Answer},
      Hears answer running after →
        after.map Running.operation = running.map Running.operation := by
    rintro running _ call answer ⟨i, hi, -⟩
    obtain ⟨hlt, hat⟩ := List.getElem?_eq_some_iff.1 hi
    have hlen : i < (running.map Running.operation).length := by simpa using hlt
    rw [List.map_set]
    calc
      _ = (running.map Running.operation).set i (running.map Running.operation)[i] := by
        rw [List.getElem_map, hat]
      _ = running.map Running.operation := List.set_getElem_self _
  cases h with
  | served hstep =>
    obtain ⟨call, answer, -, hhears⟩ := hstep.exists_hears
    exact hset hhears
  | refused hfail hhears => exact hset hhears

theorem operations_of_run {first : Pool} (h : Relation.ReflTransGen Turn first pool) :
    pool.running.map Running.operation = first.running.map Running.operation := by
  induction h with
  | refl => rfl
  | tail _ hturn ih => rw [hturn.operations_eq, ih]

/-- Operations about different products keep apart, whatever turns they take. -/
theorem apart_of_run {first : Pool} (h : Relation.ReflTransGen Turn first pool)
    (hfirst : (first.running.map Running.operation).Pairwise Operation.Unrelated) :
    pool.Apart := by
  rw [← operations_of_run h, List.pairwise_map] at hfirst
  refine hfirst.imp fun hunrelated id hboth => ?_
  exact hunrelated id ⟨hboth.1.2.1, hboth.2.2.1⟩

/-- **Operations that keep apart keep the cache coherent.** On any rows, with an empty cache of any
capacity, and whatever operations run at the same time, in whatever turns, any of which may fail
without effect: as long as no two of them were in flight about the same product, each cached text is
that of the row under its identifier. If the operations are about different products, this is so in
every run. -/
theorem coherent_while_apart (capacity : Nat) (table : Table)
    (operations : List (String × Operation)) :
    (∀ pool, Relation.ReflTransGen ApartTurn (start capacity table operations) pool →
      pool.backends.Coherent) ∧
    ((operations.map Prod.snd).Pairwise Operation.Unrelated →
      ∀ pool, Relation.ReflTransGen Turn (start capacity table operations) pool →
        pool.backends.Coherent) := by
  have hapart : ∀ pool, Relation.ReflTransGen ApartTurn (start capacity table operations) pool →
      pool.backends.Coherent := by
    intro pool h
    have htidy := tidy_of_run (tidy_start capacity table operations) h
    exact Backends.coherent_iff.2 fun id => (htidy.orderly id).coherent
  refine ⟨hapart, fun hunrelated pool h => hapart pool ?_⟩
  have hfirst : ((start capacity table operations).running.map Running.operation).Pairwise
      Operation.Unrelated := by
    rw [start, List.map_map]
    exact hunrelated
  induction h with
  | refl => exact .refl
  | tail hrun hturn ih => exact ih.tail ⟨hturn, apart_of_run hrun hfirst⟩

/-! ### Two products that share one place -/

/-- Another product. -/
def whiteTea : Product := ⟨2, "tea", "white"⟩

/-- The rows of both. -/
def twoTeas : Table := ⟨[greenTea, whiteTea], by decide⟩

/-- Two fetches of different products, and an update of the first one. -/
theorem apart_three {x : Program (Outcome (Operation.fetch 1).Value)}
    {y : Program (Outcome (Operation.fetch 2).Value)}
    {z : Program (Outcome (Operation.update 1 blackTea).Value)} {s : Backends}
    (h : ¬ Running.InFlight ⟨.fetch 1, x⟩ ∨ ¬ Running.InFlight ⟨.update 1 blackTea, z⟩) :
    Apart ⟨[⟨.fetch 1, x⟩, ⟨.fetch 2, y⟩, ⟨.update 1 blackTea, z⟩], s⟩ := by
  have hfetches : Running.Apart ⟨.fetch 1, x⟩ ⟨.fetch 2, y⟩ := by
    rintro id ⟨⟨-, hone, -⟩, -, htwo, -⟩
    cases hone.trans htwo.symm
  have hother : Running.Apart ⟨.fetch 2, y⟩ ⟨.update 1 blackTea, z⟩ := by
    rintro id ⟨⟨-, htwo, -⟩, -, hone, -⟩
    cases htwo.trans hone.symm
  have hsame : Running.Apart ⟨.fetch 1, x⟩ ⟨.update 1 blackTea, z⟩ := by
    rintro id ⟨⟨hfetch, -⟩, hupdate, -⟩
    exact h.elim (fun hno => hno hfetch) fun hno => hno hupdate
  refine List.Pairwise.cons ?_ (List.Pairwise.cons ?_ (List.pairwise_singleton _ _))
  · intro r hr
    rcases List.mem_cons.1 hr with rfl | hr
    · exact hfetches
    · exact List.mem_singleton.1 hr ▸ hsame
  · intro r hr
    exact List.mem_singleton.1 hr ▸ hother

/-- Two products are fetched in turns, where one look-up fails and the second product takes the
place of the first. Then the row of the first one is changed. -/
theorem coherent_while_apart_two_teas :
    (∃ pool, Relation.ReflTransGen ApartTurn
      (start 1 twoTeas [("a", .fetch 1), ("b", .fetch 2), ("c", .update 1 blackTea)]) pool ∧
      pool.backends.table.rows = [blackTea.withId 1, whiteTea] ∧
      pool.backends.cache.entries = [(2, whiteTea.encode)] ∧ pool.backends.Coherent) ∧
    ∃ pool, Relation.ReflTransGen Turn (start 1 twoTeas [("a", .fetch 1), ("b", .fetch 2)]) pool ∧
      pool.backends.cache.evictions = 1 ∧ pool.backends.Coherent := by
  let green : Cache := { missed with entries := [(1, greenTea.encode)] }
  let white : Cache := { missed with entries := [(2, whiteTea.encode)], evictions := 1 }
  let changed := twoTeas.replace (blackTea.withId 1)
  have hmiss : Backends.Serves ⟨twoTeas, Cache.empty 1⟩ (.cache (.get 1)) (.error (.notFound 1))
      ⟨twoTeas, missed⟩ := ⟨rfl, rfl⟩
  have hfail : Fails (.cache (.get 2)) (.error .elapsed) := ⟨_, rfl⟩
  have hgreen : Backends.Serves ⟨twoTeas, missed⟩ (.store (.find 1)) (.ok greenTea)
      ⟨twoTeas, missed⟩ := ⟨⟨rfl, rfl⟩, rfl⟩
  have hwhite : Backends.Serves ⟨twoTeas, missed⟩ (.store (.find 2)) (.ok whiteTea)
      ⟨twoTeas, missed⟩ := ⟨⟨rfl, rfl⟩, rfl⟩
  have hset : Backends.Serves ⟨twoTeas, missed⟩ (.cache (.set greenTea)) (.ok ())
      ⟨twoTeas, green⟩ := ⟨rfl, rfl⟩
  have hevict : Backends.Serves ⟨twoTeas, green⟩ (.cache (.set whiteTea)) (.ok ())
      ⟨twoTeas, white⟩ := ⟨rfl, rfl⟩
  have hdrop : Backends.Serves ⟨twoTeas, white⟩ (.cache (.delete 1)) (.error (.notFound 1))
      ⟨twoTeas, white⟩ := ⟨rfl, rfl⟩
  have hchange : Backends.Serves ⟨twoTeas, white⟩ (.store (.update 1 blackTea)) (.ok greenTea)
      ⟨changed, white⟩ := ⟨⟨rfl, rfl⟩, rfl⟩
  constructor
  · have hbefore : ∀ {x y s}, Apart ⟨[⟨.fetch 1, x⟩, ⟨.fetch 2, y⟩,
        ⟨.update 1 blackTea, Service.update 1 blackTea⟩], s⟩ :=
      apart_three (.inr fun hflight => hflight.1 "c" rfl)
    have hturns := Relation.ReflTransGen.refl (r := ApartTurn)
        (a := start 1 twoTeas [("a", .fetch 1), ("b", .fetch 2), ("c", .update 1 blackTea)])
      |>.tail ⟨.served (.turn 0 rfl (.call rfl hmiss)), hbefore⟩
      |>.tail ⟨.refused hfail (.turn 1 rfl rfl), hbefore⟩
      |>.tail ⟨.served (.turn 0 rfl (.call rfl hgreen)), hbefore⟩
      |>.tail ⟨.served (.turn 1 rfl (.call rfl hwhite)), hbefore⟩
      |>.tail ⟨.served (.turn 0 rfl (.call rfl hset)), hbefore⟩
      |>.tail ⟨.served (.turn 1 rfl (.call rfl hevict)), hbefore⟩
      |>.tail ⟨.served (.turn 2 rfl (.call rfl hdrop)), hbefore⟩
      |>.tail ⟨.served (.turn 2 rfl (.call rfl hchange)),
        apart_three (.inl fun hflight => hflight.2 ⟨_, rfl⟩)⟩
    exact ⟨_, hturns, rfl, rfl, (coherent_while_apart 1 twoTeas _).1 _ hturns⟩
  · have hall := coherent_while_apart 1 twoTeas [("a", .fetch 1), ("b", .fetch 2)]
    have hunrelated : ([.fetch 1, .fetch 2] : List Operation).Pairwise Operation.Unrelated := by
      refine List.pairwise_pair.2 ?_
      rintro id ⟨hone, htwo⟩
      cases hone.trans htwo.symm
    have hturns := Relation.ReflTransGen.refl (r := Turn)
        (a := start 1 twoTeas [("a", .fetch 1), ("b", .fetch 2)])
      |>.tail (.served (.turn 0 rfl (.call rfl hmiss)))
      |>.tail (.refused hfail (.turn 1 rfl rfl))
      |>.tail (.served (.turn 0 rfl (.call rfl hgreen)))
      |>.tail (.served (.turn 1 rfl (.call rfl hwhite)))
      |>.tail (.served (.turn 0 rfl (.call rfl hset)))
      |>.tail (.served (.turn 1 rfl (.call rfl hevict)))
    exact ⟨_, hturns, rfl, hall.2 hunrelated _ hturns⟩

end Pool

end Catalogue
