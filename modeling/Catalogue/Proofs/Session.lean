import Catalogue.Proofs.Backends

/-!
# Operations one after another, over backends that fail

A *session* is a sequence of operations against backends that may fail at any call. A call that
fails has done its work or none of it, whatever it answers (`Backends.Suffers`); an operation may
be given up before any of its calls (`Program.Attempt`), and the next one finds what was left
behind. The *trail* of a session is what the backends hold after each of its calls.

The cache stays coherent along every trail. The one thing that carries this is that a failed call
warrants nothing: what follows it does not touch the text or the row that it was about.
-/

namespace Catalogue

/-- What may be answered to a call, and how it may leave the backends, when they can fail. -/
inductive Backends.Suffers (s : Backends) (call : Call) : call.Answer → Backends → Prop
  /-- Nothing went wrong. -/
  | served {answer : call.Answer} {after : Backends} :
      s.Serves call answer after → Suffers s call answer after
  /-- The call failed without effect. -/
  | refused {answer : call.Answer} : Fails call answer → Suffers s call answer s
  /-- The call took effect, but its answer got lost. -/
  | applied {answer lost : call.Answer} {after : Backends} :
      Fails call answer → s.Serves call lost after → Suffers s call answer after

/-- An operation in progress is carried on for some of its calls, and then it has ended or is given
up. -/
inductive Program.Attempt {α : Type} : Program α → Backends → List Backends → Prop
  | stop (program : Program α) (s : Backends) : Attempt program s []
  | call {call : Call} {next : call.Answer → Program α} {s after : Backends} {answer : call.Answer}
      {trail : List Backends} :
      s.Suffers call answer after → Attempt (next answer) after trail →
        Attempt (.ask call next) s (after :: trail)
  | log {event : Event} {rest : Program α} {s : Backends} {trail : List Backends} :
      Attempt rest s trail → Attempt (.log event rest) s trail

/-- Operations, each with the identifier of its request, are attempted one after another. -/
inductive Session : List (String × Operation) → Backends → List Backends → Prop
  | nil (s : Backends) : Session [] s []
  | cons {requestId : String} {operation : Operation} {rest : List (String × Operation)}
      {s : Backends} {trail more : List Backends} :
      (operation.program requestId).Attempt s trail → Session rest (trail.getLastD s) more →
        Session ((requestId, operation) :: rest) s (trail ++ more)

/-! ### One call -/

namespace Backends

variable {s after : Backends} {call next : Call} {answer : call.Answer}

/-- The cache is coherent, and every call that is warranted now is ready. -/
structure Sound (s : Backends) (before : Option Answered) : Prop where
  coherent : s.Coherent
  ready : ∀ next, Warrants before next → ∀ id, s.ReadyAt id next

theorem Coherent.sound (h : s.Coherent) : s.Sound none := by
  refine ⟨h, fun next hnext id => readyAt_of_fails s id ?_ hnext⟩
  rintro _ ⟨⟩

/-- A warranted call keeps the backends sound, even if it fails. -/
theorem Sound.of_suffers {before : Option Answered} (hs : s.Sound before)
    (hcall : Warrants before call) (h : s.Suffers call answer after) :
    after.Sound (some ⟨call, answer⟩) := by
  have hserved : ∀ {lost : call.Answer}, s.Serves call lost after → after.Coherent :=
    fun h => coherent_iff.2 fun id =>
      coherentAt_of_serves (coherent_iff.1 hs.coherent id) (hs.ready call hcall id) h
  have hfailed : Fails call answer →
      ∀ next, Warrants (some ⟨call, answer⟩) next → ∀ id, after.ReadyAt id next := by
    intro hfail next hnext id
    refine readyAt_of_fails after id ?_ hnext
    rintro _ ⟨⟩
    exact hfail
  cases h with
  | served h => exact ⟨hserved h, fun next hnext id => readyAt_of_warrants id h hnext⟩
  | refused hfail => exact ⟨hs.coherent, hfailed hfail⟩
  | applied hfail h => exact ⟨hserved h, hfailed hfail⟩

/-- What an operation leaves to the next one is coherent if all its moments were. -/
theorem coherent_getLastD {trail : List Backends} (hs : s.Coherent)
    (h : ∀ moment ∈ trail, moment.Coherent) : (trail.getLastD s).Coherent := by
  have hmem : trail.getLastD s ∈ s :: trail := List.getLastD_mem_cons
  rcases List.mem_cons.1 hmem with hlast | hlast
  · rw [hlast]
    exact hs
  · exact h _ hlast

end Backends

/-! ### Whole sessions -/

/-- An attempt at an operation that keeps the rules keeps the cache coherent at every moment. -/
theorem Program.Attempt.coherent {α : Type} {program : Program α} {s : Backends}
    {trail : List Backends} (h : program.Attempt s trail) {before : Option Answered}
    (hs : s.Sound before) (hprogram : program.Warranted before) :
    ∀ moment ∈ trail, moment.Coherent := by
  induction h generalizing before with
  | stop program s => exact fun _ hm => nomatch hm
  | call hcall _ ih =>
    have hafter := hs.of_suffers hprogram.1 hcall
    intro moment hm
    rcases List.mem_cons.1 hm with rfl | hm
    · exact hafter.coherent
    · exact ih hafter (hprogram.2 _) moment hm
  | log _ ih => exact ih hs hprogram

/-- A session that finds the cache coherent keeps it so. -/
theorem Session.coherent {operations : List (String × Operation)} {s : Backends}
    {trail : List Backends} (h : Session operations s trail) (hs : s.Coherent) :
    ∀ moment ∈ trail, moment.Coherent := by
  induction h with
  | nil s => exact fun _ hm => nomatch hm
  | @cons requestId operation rest s trail more hfirst _ ih =>
    have hall := hfirst.coherent hs.sound (operation.warranted requestId)
    intro moment hm
    rcases List.mem_append.1 hm with hm | hm
    · exact hall moment hm
    · exact ih (Backends.coherent_getLastD hs hall) moment hm

/-- **The cache stays coherent, whatever fails.** Operations run one after another on any rows and
an empty cache of any capacity; any call may fail with or without effect, and any operation may be
given up. After every call, each cached text is that of the row under its identifier. -/
theorem Session.coherent_throughout {capacity : Nat} {table : Table}
    {operations : List (String × Operation)} {trail : List Backends}
    (h : Session operations ⟨table, Cache.empty capacity⟩ trail) :
    ∀ moment ∈ trail, ∀ entry ∈ moment.cache.entries,
      ∃ row, moment.table.row? entry.1 = some row ∧ entry.2 = row.encode :=
  h.coherent (Backends.coherent_empty table capacity)

/-- The answer to an update gets lost after a row that had been cached was changed by it. -/
theorem Session.coherent_throughout_lost_update :
    let old : Product := ⟨1, "tea", "green"⟩
    let new : Draft := ⟨"tea", "black"⟩
    let table : Table := ⟨[old], List.pairwise_singleton _ _⟩
    ∃ trail, Session [("a", .fetch 1), ("b", .update 1 new)] ⟨table, Cache.empty 1⟩ trail ∧
      trail.map (fun moment => (moment.table.rows, moment.cache.entries)) =
        [([old], []), ([old], []), ([old], [(1, old.encode)]), ([old], []),
          ([new.withId 1], [])] ∧
      ∀ moment ∈ trail, ∀ entry ∈ moment.cache.entries,
        ∃ row, moment.table.row? entry.1 = some row ∧ entry.2 = row.encode := by
  intro old new table
  let missed : Cache := { capacity := 1, misses := 1 }
  let filled : Cache := { missed with entries := [(1, old.encode)] }
  have hfetch : (Operation.program "a" (.fetch 1)).Attempt ⟨table, Cache.empty 1⟩
      [⟨table, missed⟩, ⟨table, missed⟩, ⟨table, filled⟩] := by
    have hmiss : Backends.Suffers ⟨table, Cache.empty 1⟩ (.cache (.get 1)) (.error (.notFound 1))
        ⟨table, missed⟩ := .served ⟨rfl, rfl⟩
    have hfind : Backends.Suffers ⟨table, missed⟩ (.store (.find 1)) (.ok old) ⟨table, missed⟩ :=
      .served ⟨⟨rfl, rfl⟩, rfl⟩
    have hset : Backends.Suffers ⟨table, missed⟩ (.cache (.set old)) (.ok ()) ⟨table, filled⟩ :=
      .served ⟨rfl, rfl⟩
    exact .call hmiss (.log (.call hfind (.call hset (.stop _ _))))
  have hupdate : (Operation.program "b" (.update 1 new)).Attempt ⟨table, filled⟩
      [⟨table, missed⟩, ⟨table.replace (new.withId 1), missed⟩] := by
    have hdrop : Backends.Suffers ⟨table, filled⟩ (.cache (.delete 1)) (.ok ()) ⟨table, missed⟩ :=
      .served ⟨rfl, rfl⟩
    have hchange : Backends.Suffers ⟨table, missed⟩ (.store (.update 1 new)) (.error .timeout)
        ⟨table.replace (new.withId 1), missed⟩ := .applied (Or.inl rfl) ⟨⟨rfl, rfl⟩, rfl⟩
    exact .call hdrop (.call hchange (.stop _ _))
  have hsession := Session.cons hfetch (.cons hupdate (.nil _))
  exact ⟨_, hsession, rfl, Session.coherent_throughout hsession⟩

end Catalogue
