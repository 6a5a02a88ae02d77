import Catalogue.Proofs.RoundTrip
import Catalogue.Proofs.Vouched

/-!
# Where texts come from

Operations at the same time, over backends where anything may go wrong: any call may be answered
with an error, and take effect at once, later, again or never (`Pool.Trial`). What is cached can be
out of date by then, and nothing is known about the rows behind a change that failed. But no text is
made up or mistaken for that of another product (`Pool.no_text_made_up`): a text that is cached, or
told by a fetch, is that of a row that was in the store under this identifier at some moment.

The products that were in the store at any moment of the run are taken as held. Then all that was
inserted is held from the answer on, all that was found is held and has the identifier it was found
under, and what the operations do with it is vouched for (`Operation.upholds`). What is left is that
a call which takes effect late is still one of those that an operation made (`Pool.Grounded`).
-/

namespace Catalogue.Pool

/-- A turn in which anything may go wrong, with the calls that have failed so far. -/
inductive Trial : Pool → List Call → Pool → List Call → Prop
  /-- A call is answered as by a map and a cache. -/
  | served {now : Pool} {failed : List Call} {running : List Running} {s : Backends} {call : Call}
      {answer : call.Answer} :
      now.backends.Takes call answer s → Hears answer now.running running →
        Trial now failed ⟨running, s⟩ failed
  /-- A call is answered with an error. -/
  | failed {now : Pool} {failed : List Call} {running : List Running} {call : Call}
      {answer : call.Answer} :
      Errs call answer → Hears answer now.running running →
        Trial now failed ⟨running, now.backends⟩ (call :: failed)
  /-- A call that failed takes effect after all. -/
  | late {now : Pool} {failed : List Call} {s : Backends} {call : Call} {answer : call.Answer} :
      call ∈ failed → now.backends.Takes call answer s → Trial now failed ⟨now.running, s⟩ failed

/-- A run in which anything may go wrong: the pool now, what it was before, the latest first, and
the calls that have failed. -/
inductive Ordeal (first : Pool) : Pool → List Pool → List Call → Prop
  | start : Ordeal first first [] []
  | turn {now after : Pool} {past : List Pool} {failed failed' : List Call} :
      Ordeal first now past failed → Trial now failed after failed' →
        Ordeal first after (now :: past) failed'

/-- The text is that of a row that was in the store under an identifier at one of the moments, and
of no other product. -/
def Stems (moments : List Pool) (id : Int64) (text : String) : Prop :=
  ∃ product, (∀ other : Product, text = other.encode ↔ other = product) ∧ product.id = id ∧
    ∃ moment ∈ moments, moment.backends.table.row? id = some product

/-- All that is cached is held, and so is all that may still get there. -/
structure Grounded (held : Product → Prop) (pool : Pool) (failed : List Call) : Prop where
  texts : ∀ entry ∈ pool.backends.cache.entries, Vouches held entry.1 entry.2
  running : ∀ r ∈ pool.running, r.Upholds held
  failed : ∀ product, .cache (.set product) ∈ failed → held product

variable {held : Product → Prop}

/-! ### One turn -/

/-- What a call leaves in the cache was there, or is the text of a product that it set. -/
theorem vouches_of_takes {s after : Backends} {call : Call} {answer : call.Answer}
    (h : s.Takes call answer after) (hs : ∀ entry ∈ s.cache.entries, Vouches held entry.1 entry.2)
    (hset : ∀ product, call = .cache (.set product) → held product) :
    ∀ entry ∈ after.cache.entries, Vouches held entry.1 entry.2 := by
  intro entry hm
  rcases h.mem_entries hm with hold | ⟨product, hcall, rfl⟩
  · exact hs entry hold
  · exact ⟨product, hset product hcall, rfl, rfl⟩

/-- A product that is about to be put into the cache is held. -/
theorem Hears.held_of_set {product : Product} {answer : Call.Answer (.cache (.set product))}
    {running after : List Running} (h : Hears answer running after)
    (hall : ∀ r ∈ running, r.Upholds held) : held product := by
  obtain ⟨r, hr, hawaits⟩ := h.exists_awaits
  exact ((hall r hr).mayAsk hawaits).held_of_set

/-- Whatever goes wrong, a turn keeps the pool grounded if the rows behind it are held, too. -/
theorem Trial.grounded {now after : Pool} {failed failed' : List Call}
    (h : Trial now failed after failed')
    (hnow : ∀ id row, now.backends.table.row? id = some row → held row)
    (hafter : ∀ id row, after.backends.table.row? id = some row → held row)
    (hpool : now.Grounded held failed) : after.Grounded held failed' := by
  obtain ⟨htexts, hrunning, hfailed⟩ := hpool
  cases h with
  | served htakes hhears =>
    have htruthful := Backends.truthful_of_takes ⟨hnow, htexts⟩ hafter htakes
    refine ⟨vouches_of_takes htakes htexts ?_, hhears.upholds htruthful hrunning, hfailed⟩
    rintro product rfl
    exact hhears.held_of_set hrunning
  | failed herrs hhears =>
    refine ⟨htexts, hhears.upholds (truthful_of_errs herrs) hrunning, fun product hmem => ?_⟩
    rcases List.mem_cons.1 hmem with rfl | hmem
    · exact hhears.held_of_set hrunning
    · exact hfailed product hmem
  | late hmem htakes =>
    refine ⟨vouches_of_takes htakes htexts ?_, hrunning, hfailed⟩
    rintro product rfl
    exact hfailed product hmem

/-! ### Whole runs -/

/-- A run stays grounded as long as all rows on the way are held. -/
theorem Ordeal.grounded {first now : Pool} {past : List Pool} {failed : List Call}
    (h : Ordeal first now past failed) (hfirst : first.Grounded held [])
    (hheld : ∀ moment ∈ now :: past, ∀ id row,
      moment.backends.table.row? id = some row → held row) :
    now.Grounded held failed := by
  induction h with
  | start => exact hfirst
  | turn hrun hturn ih =>
    have hnow := ih fun moment hm => hheld moment (List.mem_cons_of_mem _ hm)
    have hbefore := hheld _ (List.mem_cons_of_mem _ (List.mem_cons_self ..))
    exact hturn.grounded hbefore (hheld _ (List.mem_cons_self ..)) hnow

/-- **No text is made up.** On any rows, with an empty cache of any capacity and whatever operations
run at the same time, in whatever turns and whatever goes wrong in them: a fetch that succeeds tells
the text of a product that has the identifier it was asked for, and that was in the store under it
at some moment up to now. So it never tells the text of another product, nor what a creation or a
change that never took effect would have stored. The same holds of every text in the cache. -/
theorem no_text_made_up {capacity : Nat} {table : Table} {operations : List (String × Operation)}
    {now : Pool} {past : List Pool} {failed : List Call}
    (h : Ordeal (start capacity table operations) now past failed) :
    (∀ id rest served, ⟨.fetch id, rest⟩ ∈ now.running → rest.silent = .done (.ok served) →
      Stems (now :: past) id served.value) ∧
    ∀ entry ∈ now.backends.cache.entries, Stems (now :: past) entry.1 entry.2 := by
  let held : Product → Prop := fun product =>
    ∃ moment ∈ now :: past, moment.backends.table.row? product.id = some product
  have hrows : ∀ moment ∈ now :: past, ∀ id row,
      moment.backends.table.row? id = some row → held row := by
    intro moment hm id row hrow
    refine ⟨moment, hm, ?_⟩
    rw [Table.id_of_row? hrow]
    exact hrow
  have hfirst : (start capacity table operations).Grounded held [] :=
    ⟨nofun, upholds_start capacity table operations, nofun⟩
  obtain ⟨htexts, hrunning, -⟩ := h.grounded hfirst hrows
  have hstems : ∀ {id text}, Vouches held id text → Stems (now :: past) id text := by
    rintro _ _ ⟨product, ⟨moment, hm, hrow⟩, rfl, rfl⟩
    refine ⟨product, fun other => ⟨fun heq => ?_, fun heq => heq ▸ rfl⟩, rfl, moment, hm, hrow⟩
    exact (Product.bytes_encode_injective (congrArg Utf8.bytes heq)).symm
  refine ⟨fun id rest served hr hend => ?_, fun entry hm => hstems (htexts entry hm)⟩
  exact hstems ((hrunning _ hr).mayTell hend served rfl)

/-- A product is read from the store, the change of its row is answered with a timeout and takes
effect only afterwards, and the next fetch is told what was read before. -/
theorem no_text_made_up_late_change :
    ∃ now past failed,
      Ordeal (start 1 greenTable [("a", .fetch 1), ("b", .update 1 blackTea), ("c", .fetch 1)])
        now past failed ∧
      failed = [.store (.update 1 blackTea)] ∧ now.backends.table = blackTable ∧
      (∃ rest served, ⟨.fetch 1, rest⟩ ∈ now.running ∧ rest.silent = .done (.ok served) ∧
        Stems (now :: past) 1 served.value ∧ served = ⟨greenTea.encode, []⟩) := by
  let filled : Cache := { missed with entries := [(1, greenTea.encode)] }
  have hset : Backends.Takes ⟨blackTable, missed⟩ (.cache (.set greenTea)) (.ok ())
      ⟨blackTable, filled⟩ := ⟨rfl, rfl⟩
  have hhit : Backends.Takes ⟨blackTable, filled⟩ (.cache (.get 1)) (.ok greenTea.encode)
      ⟨blackTable, { filled with hits := 1 }⟩ := ⟨rfl, rfl⟩
  have htimeout : Errs (.store (.update 1 blackTea)) (.error .timeout) := ⟨_, rfl⟩
  let first := start 1 greenTable [("a", .fetch 1), ("b", .update 1 blackTea), ("c", .fetch 1)]
  have hfirst : Ordeal first first [] [] := .start
  have hrun := hfirst
    |>.turn (.served serves_miss.takes (.turn 0 rfl rfl))
    |>.turn (.served serves_green.takes (.turn 0 rfl rfl))
    |>.turn (.served serves_drop.takes (.turn 1 rfl rfl))
    |>.turn (.failed htimeout (.turn 1 rfl rfl))
    |>.turn (.late (List.mem_cons_self ..) serves_change.takes)
    |>.turn (.served hset (.turn 0 rfl rfl))
    |>.turn (.served hhit (.turn 2 rfl rfl))
  refine ⟨_, _, _, hrun, rfl, rfl, _, _, List.mem_of_getElem? (i := 2) rfl, rfl, ?_, rfl⟩
  exact (no_text_made_up hrun).1 1 _ _ (List.mem_of_getElem? (i := 2) rfl) rfl

end Catalogue.Pool
