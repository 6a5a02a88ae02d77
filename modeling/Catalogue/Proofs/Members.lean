import Catalogue.Product.Decode
import Catalogue.Proofs.Chains
import Catalogue.Proofs.Objects
import Catalogue.Proofs.RoundTrip

/-!
# Members in any order

What one member does to the fields read so far does not depend on what stands around it
(`Schema.Step`): its value goes to a free field that its key names, or it is passed over. So a text
that spells members is read as the record to which the members lead one after another
(`Schema.decode_eq_ok_iff`), and members that lead somewhere lead there in any order
(`Schema.Run.perm`).

For products this says that the order of members, blanks, and members that are not known make no
difference, but that a known member may neither come twice nor be missing; drafts know no others.
-/

namespace Catalogue

open Json

namespace Members

/-- **What a word puts into a field.** -/
inductive Puts (seen : Members) : Field → Input → Members → Prop
  | id {word : Input} {n : Int64} : Integer word n → Puts seen .id word { seen with id := some n }
  | name {word : Input} {s : String} :
      Denotes word s.toList → Puts seen .name (quoted word) { seen with name := some s }
  | info {word : Input} {s : String} :
      Denotes word s.toList → Puts seen .info (quoted word) { seen with info := some s }

variable {seen next last : Members} {field other : Field} {word word' input rest : Input}

theorem Puts.scalar (h : seen.Puts field word next) : Scalar word := by
  cases h with
  | id hword => exact hword.scalar
  | name hdenotes => exact .text hdenotes.quotable
  | info hdenotes => exact .text hdenotes.quotable

theorem Puts.has_eq (h : seen.Puts field word next) :
    next.has other = (seen.has other || decide (other = field)) := by
  cases h <;> cases other <;> simp [has]

/-- Different fields do not get in each other's way. -/
theorem Puts.swap (h : seen.Puts field word next) (h' : next.Puts other word' last)
    (hne : other ≠ field) :
    ∃ mid, seen.Puts other word' mid ∧ mid.Puts field word last := by
  cases h with
  | id hword =>
    cases h' with
    | id _ => exact absurd rfl hne
    | name hword' => exact ⟨_, .name hword', .id hword⟩
    | info hword' => exact ⟨_, .info hword', .id hword⟩
  | name hword =>
    cases h' with
    | id hword' => exact ⟨_, .id hword', .name hword⟩
    | name _ => exact absurd rfl hne
    | info hword' => exact ⟨_, .info hword', .name hword⟩
  | info hword =>
    cases h' with
    | id hword' => exact ⟨_, .id hword', .info hword⟩
    | name hword' => exact ⟨_, .name hword', .info hword⟩
    | info _ => exact absurd rfl hne

/-- A field is read where its word stands. -/
theorem Puts.read_eq_ok (h : seen.Puts field word next) (hspaced : Spaced [word] input rest)
    (hends : Ends rest) : seen.read field input = .ok (next, rest) := by
  cases h with
  | id hword =>
    exact map_eq_ok_iff.2 ⟨_, readInt64Value_eq_ok_iff.2 ⟨hends, word, hword, hspaced⟩, rfl⟩
  | name hdenotes =>
    exact map_eq_ok_iff.2 ⟨_, readTextValue_eq_ok_iff_spaced.2 ⟨_, hdenotes, hspaced⟩, rfl⟩
  | info hdenotes =>
    exact map_eq_ok_iff.2 ⟨_, readTextValue_eq_ok_iff_spaced.2 ⟨_, hdenotes, hspaced⟩, rfl⟩

/-- What a field is read from is a word, and would be passed over as well. -/
theorem exists_puts (h : seen.read field input = .ok (next, rest)) :
    ∃ word, seen.Puts field word next ∧ Spaced [word] input rest ∧
      skipValue [] input = .ok rest := by
  cases field with
  | id =>
    obtain ⟨⟨n, left⟩, hread, heq⟩ := map_eq_ok_iff.1 h
    cases heq
    obtain ⟨hends, word, hword, hspaced⟩ := readInt64Value_eq_ok_iff.1 hread
    exact ⟨word, .id hword, hspaced, skipValue_eq_ok (.scalar hword.scalar) hspaced hends⟩
  | name =>
    obtain ⟨⟨s, left⟩, hread, heq⟩ := map_eq_ok_iff.1 h
    cases heq
    obtain ⟨word, hdenotes, hspaced⟩ := readTextValue_eq_ok_iff_spaced.1 hread
    exact ⟨_, .name hdenotes, hspaced, skipValue_quoted hdenotes.quotable hspaced⟩
  | info =>
    obtain ⟨⟨s, left⟩, hread, heq⟩ := map_eq_ok_iff.1 h
    cases heq
    obtain ⟨word, hdenotes, hspaced⟩ := readTextValue_eq_ok_iff_spaced.1 hread
    exact ⟨_, .info hdenotes, hspaced, skipValue_quoted hdenotes.quotable hspaced⟩

end Members

namespace Schema

variable {α : Type}

/-- **What a member does** to the fields read so far: its value goes to the free field that its key
names. If it names none it is passed over, but a strict schema has no place for it. -/
inductive Step (schema : Schema α) (seen : Members) (member : Member) : Members → Prop
  | field {field : Field} {word : Input} {next : Members} :
      schema.field? member.key = some field → seen.has field = false → member.value = [word] →
        seen.Puts field word next → Step schema seen member next
  | other : schema.field? member.key = none → schema.strict = false → Step schema seen member seen

/-- What members do one after another. -/
inductive Run (schema : Schema α) : Members → List Member → Members → Prop
  | nil (seen : Members) : Run schema seen [] seen
  | cons {seen next last : Members} {member : Member} {members : List Member} :
      schema.Step seen member next → Run schema next members last →
        Run schema seen (member :: members) last

variable {schema : Schema α} {seen mid next last : Members} {member : Member}
  {members more : List Member} {field : Field} {record : α} {text input left rest : Input}
  {first : Bool}

/-! ### Reading members -/

/-- **A member is read** for what it does. -/
theorem readMember_eq_ok_iff (hspaced : Spaced ([Byte.colon] :: member.value) input left)
    (hends : Ends left) :
    schema.readMember seen member.key input = .ok (next, rest) ↔
      schema.Step seen member next ∧ rest = left := by
  rw [← List.singleton_append, spaced_append_iff] at hspaced
  obtain ⟨behind, hcolon, hvalue⟩ := hspaced
  have hpassed : skipValue [] behind = .ok left := skipValue_eq_ok member.wellFormed hvalue hends
  unfold readMember
  rw [readColon_eq_ok_iff_spaced.2 hcolon]
  constructor
  · intro h
    split at h
    · rename_i field hfield
      split_ifs at h with hhas
      obtain ⟨word, hputs, hsingle, hpassed'⟩ := Members.exists_puts h
      cases hpassed.symm.trans hpassed'
      have hword := member.wellFormed.eq_singleton hputs.scalar hvalue hsingle
      exact ⟨.field hfield (by simpa using hhas) hword hputs, rfl⟩
    · rename_i hfield
      split_ifs at h with hstrict
      dsimp only at h
      rw [hpassed] at h
      cases h
      exact ⟨.other hfield (by simpa using hstrict), rfl⟩
  · rintro ⟨hstep, rfl⟩
    cases hstep with
    | field hfield hhas hword hputs =>
      rw [hfield]
      dsimp only
      rw [hhas, if_neg (by decide)]
      rw [hword] at hvalue
      exact hputs.read_eq_ok hvalue hends
    | other hfield hstrict =>
      rw [hfield]
      dsimp only
      rw [hstrict, if_neg (by decide), hpassed]
      rfl

/-- The words of members: those up to the key of the first, then its colon and its value. -/
theorem enclosed_members_cons (first : Bool) (member : Member) (members : List Member) :
    enclosed first Byte.closeBrace ((member :: members).map Member.words) =
      ((if first then [] else [[Byte.comma]]) ++ [quoted member.word]) ++
        (([Byte.colon] :: member.value) ++
          enclosed false Byte.closeBrace (members.map Member.words)) := by
  rw [List.map_cons, enclosed_cons, Member.words, List.append_assoc]
  rfl

/-- An object has fewer members than bytes. -/
theorem length_lt_of_spaced
    (h : Spaced (enclosed first Byte.closeBrace (members.map Member.words)) input rest) :
    members.length < input.length := by
  induction members generalizing first input with
  | nil =>
    obtain ⟨_, hskip, ⟨⟩⟩ := (spaced_mark_iff (by decide)).1 h
    exact Nat.lt_of_le_of_lt (Nat.zero_le _) (length_lt_of_skipBlanks hskip)
  | cons member members ih =>
    rw [enclosed_members_cons] at h
    obtain ⟨behind, hkey, h⟩ := spaced_append_iff.1 h
    obtain ⟨after, hvalue, hothers⟩ := spaced_append_iff.1 h
    have hlt := length_nextMember_lt (nextMember_eq_key_iff_spaced.2 ⟨_, member.denotes, hkey⟩)
    have hle := hvalue.length_le
    have hothers := ih hothers
    rw [List.length_cons]
    omega

/-- **Members are read** for what they do one after another. -/
theorem readMembers_eq_ok_iff
    (h : Spaced (enclosed first Byte.closeBrace (members.map Member.words)) input left)
    {limit : Nat} (hlimit : members.length < limit) :
    schema.readMembers first seen input limit = .ok (last, rest) ↔
      schema.Run seen members last ∧ rest = left := by
  induction members generalizing first seen input limit with
  | nil =>
    obtain ⟨limit, rfl⟩ : ∃ n, limit = n + 1 := ⟨limit - 1, by omega⟩
    rw [readMembers, nextMember_eq_close_iff_spaced.2 h]
    constructor
    · rintro ⟨⟩
      exact ⟨.nil _, rfl⟩
    · rintro ⟨⟨⟩, rfl⟩
      rfl
  | cons member members ih =>
    obtain ⟨limit, rfl⟩ : ∃ n, limit = n + 1 := ⟨limit - 1, by omega⟩
    rw [List.length_cons] at hlimit
    rw [enclosed_members_cons] at h
    obtain ⟨behind, hkey, h⟩ := spaced_append_iff.1 h
    obtain ⟨after, hvalue, hothers⟩ := spaced_append_iff.1 h
    have hends := ends_of_enclosed hothers ⟨.object, rfl⟩
    rw [readMembers, nextMember_eq_key_iff_spaced.2 ⟨_, member.denotes, hkey⟩]
    dsimp only
    constructor
    · intro h
      split at h
      · cases h
      rename_i next mid hmember
      obtain ⟨hstep, rfl⟩ := (readMember_eq_ok_iff hvalue hends).1 hmember
      obtain ⟨hrun, rfl⟩ := (ih hothers (by omega)).1 h
      exact ⟨.cons hstep hrun, rfl⟩
    · rintro ⟨⟨⟩ | ⟨hstep, hrun⟩, rfl⟩
      rw [(readMember_eq_ok_iff hvalue hends).2 ⟨hstep, rfl⟩]
      exact (ih hothers (by omega)).2 ⟨hrun, rfl⟩

theorem readObject_eq_ok_iff
    (h : Spaced (enclosed true Byte.closeBrace (members.map Member.words)) input left) :
    schema.readObject input = .ok (record, rest) ↔
      (∃ last, schema.Run {} members last ∧ schema.build last = .ok record) ∧ rest = left := by
  have hlimit := length_lt_of_spaced h
  unfold readObject
  constructor
  · intro hread
    split at hread
    · cases hread
    rename_i last mid hmembers
    obtain ⟨hrun, rfl⟩ := (readMembers_eq_ok_iff h (by omega)).1 hmembers
    split at hread
    · rename_i hbuild
      cases hread
      exact ⟨⟨last, hrun, hbuild⟩, rfl⟩
    · cases hread
  · rintro ⟨⟨last, hrun, hbuild⟩, rfl⟩
    rw [(readMembers_eq_ok_iff h (by omega)).2 ⟨hrun, rfl⟩]
    dsimp only
    rw [hbuild]

theorem read_of_openBrace (hskip : skipBlanks text = Byte.openBrace :: input) :
    schema.read text = schema.readObject input := by
  unfold read
  rw [hskip]
  rfl

/-- **A text that spells members is read as the record to which they lead.** -/
theorem decode_eq_ok_iff (h : SpellsObject members text) :
    schema.decode text = .ok record ↔
      ∃ last, schema.Run {} members last ∧ schema.build last = .ok record := by
  obtain ⟨rest, hspaced, hblank⟩ := h
  obtain ⟨input, hskip, hmembers⟩ := (spaced_mark_iff (by decide)).1 hspaced
  unfold decode
  rw [read_of_openBrace hskip]
  constructor
  · intro hdecode
    split at hdecode
    · cases hdecode
    rename_i found mid hobject
    obtain ⟨hrun, -⟩ := (readObject_eq_ok_iff hmembers).1 hobject
    split at hdecode
    · cases hdecode
      exact hrun
    · cases hdecode
  · intro hrun
    rw [(readObject_eq_ok_iff hmembers).2 ⟨hrun, rfl⟩]
    dsimp only
    rw [skipBlanks_eq_nil_iff.2 hblank]

/-! ### The members of an object -/

/-- Behind a key there are a colon and a value. -/
theorem exists_value_of_readMember {key : String}
    (h : schema.readMember seen key input = .ok (next, rest)) :
    ∃ value, Value value ∧ Spaced ([Byte.colon] :: value) input rest := by
  have hbehind : ∀ {mid value}, readColon input = .ok mid → Spaced value mid rest →
      Spaced ([Byte.colon] :: value) input rest := fun hcolon hvalue =>
    spaced_append_iff.2 ⟨_, readColon_eq_ok_iff_spaced.1 hcolon, hvalue⟩
  unfold readMember at h
  split at h
  · split_ifs at h
    split at h
    · rename_i hcolon
      obtain ⟨word, hputs, hsingle, -⟩ := Members.exists_puts h
      exact ⟨[word], .scalar hputs.scalar, hbehind hcolon hsingle⟩
    · cases h
  · split_ifs at h
    split at h
    · rename_i hcolon
      obtain ⟨left, hskip, heq⟩ := map_eq_ok_iff.1 h
      cases heq
      obtain ⟨value, hvalue, hspaced⟩ := exists_value hskip
      exact ⟨value, hvalue, hbehind hcolon hspaced⟩
    · cases h

theorem exists_members_of_readMembers {limit : Nat}
    (h : schema.readMembers first seen input limit = .ok (last, rest)) :
    ∃ members : List Member,
      Spaced (enclosed first Byte.closeBrace (members.map Member.words)) input rest := by
  induction limit generalizing first seen input with
  | zero => cases h
  | succ limit ih =>
    rw [readMembers] at h
    split at h
    · cases h
    · rename_i left hclose
      cases h
      exact ⟨[], nextMember_eq_close_iff_spaced.1 hclose⟩
    · rename_i key behind hkey
      split at h
      · cases h
      rename_i next after hmember
      obtain ⟨members, hothers⟩ := ih h
      obtain ⟨word, hdenotes, hfront⟩ := nextMember_eq_key_iff_spaced.1 hkey
      obtain ⟨value, hvalue, hspaced⟩ := exists_value_of_readMember hmember
      refine ⟨⟨key, word, value, hdenotes, hvalue⟩ :: members, ?_⟩
      rw [enclosed_members_cons]
      exact spaced_append_iff.2 ⟨behind, hfront, spaced_append_iff.2 ⟨after, hspaced, hothers⟩⟩

/-- **What is read from an object is one of members.** -/
theorem exists_objectOf (hskip : skipBlanks text = Byte.openBrace :: input)
    (h : schema.decode text = .ok record) : ∃ members, ObjectOf members text := by
  unfold decode at h
  rw [read_of_openBrace hskip] at h
  split at h
  · cases h
  rename_i found rest hobject
  split at h
  · rename_i hblank
    unfold readObject at hobject
    split at hobject
    · cases hobject
    rename_i last mid hmembers
    obtain ⟨members, hspaced⟩ := exists_members_of_readMembers hmembers
    split at hobject
    · cases hobject
      exact ⟨members, members, .refl members, rest,
        (spaced_mark_iff (by decide)).2 ⟨input, hskip, hspaced⟩, skipBlanks_eq_nil_iff.1 hblank⟩
    · cases hobject
  · cases h

/-! ### Other orders -/

theorem Run.append (h : schema.Run seen members mid) (hmore : schema.Run mid more last) :
    schema.Run seen (members ++ more) last := by
  induction h with
  | nil => exact hmore
  | cons hstep _ ih => exact .cons hstep (ih hmore)

theorem run_append_iff :
    schema.Run seen (members ++ more) last ↔
      ∃ mid, schema.Run seen members mid ∧ schema.Run mid more last := by
  constructor
  · intro h
    induction members generalizing seen with
    | nil => exact ⟨seen, .nil seen, h⟩
    | cons member members ih =>
      cases h with
      | cons hstep hrest =>
        obtain ⟨mid, hfront, hmore⟩ := ih hrest
        exact ⟨mid, .cons hstep hfront, hmore⟩
  · rintro ⟨mid, hfront, hmore⟩
    exact hfront.append hmore

/-- What a member fills is the field that its key names. -/
theorem Step.has_iff (h : schema.Step seen member next) :
    next.has field = true ↔ seen.has field = true ∨ schema.field? member.key = some field := by
  cases h with
  | field hfield _ _ hputs =>
    rw [hputs.has_eq, hfield, Bool.or_eq_true, decide_eq_true_eq, Option.some.injEq,
      @eq_comm _ field]
  | other hfield _ =>
    rw [hfield]
    simp

/-- Members do the same one way round as the other. -/
theorem Step.swap {other : Member} (h : schema.Step seen member mid)
    (h' : schema.Step mid other last) :
    ∃ mid', schema.Step seen other mid' ∧ schema.Step mid' member last := by
  cases h with
  | other hfield hstrict => exact ⟨last, h', .other hfield hstrict⟩
  | @field field _ _ hfield hfree hword hputs =>
    cases h' with
    | other hfield' hstrict => exact ⟨seen, .other hfield' hstrict, .field hfield hfree hword hputs⟩
    | @field field' _ _ hfield' hfree' hword' hputs' =>
      rw [hputs.has_eq, Bool.or_eq_false_iff, decide_eq_false_iff_not] at hfree'
      obtain ⟨mid', hother, hthis⟩ := hputs.swap hputs' hfree'.2
      have hstill : mid'.has field = false := by
        rw [hother.has_eq, hfree, Bool.false_or, decide_eq_false_iff_not]
        exact fun heq => hfree'.2 heq.symm
      exact ⟨mid', .field hfield' hfree'.1 hword' hother, .field hfield hstill hword hthis⟩

/-- **Members lead to the same in any order.** -/
theorem Run.perm (h : schema.Run seen members last) (hperm : members.Perm more) :
    schema.Run seen more last := by
  induction hperm generalizing seen with
  | nil => exact h
  | cons member _ ih =>
    cases h with
    | cons hstep hrest => exact .cons hstep (ih hrest)
  | swap member other members =>
    cases h with
    | cons hother hrest =>
      cases hrest with
      | cons hmember hrest =>
        obtain ⟨mid, hfirst, hsecond⟩ := hother.swap hmember
        exact .cons hfirst (.cons hsecond hrest)
  | trans _ _ ih ih' => exact ih' (ih h)

/-- Members that name no field are passed over. -/
theorem run_of_unknown (hstrict : schema.strict = false)
    (hunknown : ∀ member ∈ members, schema.field? member.key = none) :
    schema.Run seen members seen := by
  induction members with
  | nil => exact .nil seen
  | cons member members ih =>
    obtain ⟨hmember, hmembers⟩ := List.forall_mem_cons.1 hunknown
    exact .cons (.other hmember hstrict) (ih hmembers)

/-- What members fill are the fields that their keys name. -/
theorem Run.has_iff (h : schema.Run seen members last) :
    last.has field = true ↔
      seen.has field = true ∨ ∃ member ∈ members, schema.field? member.key = some field := by
  induction h with
  | nil => simp
  | cons hstep _ ih =>
    rw [ih, hstep.has_iff, or_assoc]
    simp only [List.mem_cons, exists_eq_or_imp]

/-- The first member of a run, done last. -/
theorem Run.exists_step (h : schema.Run seen (member :: members) last) :
    ∃ mid, schema.Run seen members mid ∧ schema.Step mid member last := by
  have hlast := h.perm (List.perm_append_singleton member members).symm
  obtain ⟨mid, hfront, hmember⟩ := run_append_iff.1 hlast
  cases hmember with
  | cons hstep hnil =>
    cases hnil
    exact ⟨mid, hfront, hstep⟩

/-- A strict schema has no place for a member that names no field. -/
theorem Run.exists_field (h : schema.Run seen members last) (hstrict : schema.strict = true)
    (hmember : member ∈ members) : ∃ field, schema.field? member.key = some field := by
  obtain ⟨front, back, rfl⟩ := List.append_of_mem hmember
  obtain ⟨mid, -, hstep⟩ := (h.perm List.perm_middle).exists_step
  cases hstep with
  | field hfield _ _ _ => exact ⟨_, hfield⟩
  | other _ hlenient => exact absurd (hstrict.symm.trans hlenient) nofun

/-- Members that fill a field have no place for another one of it. -/
theorem Run.not_second (h : schema.Run {} members last) (hfilled : last.has field = true)
    (hfield : schema.field? member.key = some field) :
    ¬ schema.Run {} (member :: members) next := by
  intro hmore
  obtain ⟨mid, hmid, hstep⟩ := hmore.exists_step
  have hsame : mid.has field = true := hmid.has_iff.2 (h.has_iff.1 hfilled)
  cases hstep with
  | field hfield' hfree _ _ =>
    cases hfield.symm.trans hfield'
    exact absurd (hsame.symm.trans hfree) nofun
  | other hnone _ => exact absurd (hfield.symm.trans hnone) nofun

theorem mem_of_field?_eq_some {key : String} (h : schema.field? key = some field) :
    field ∈ schema.fields :=
  List.mem_of_find?_eq_some h

theorem field?_eq_none_iff {key : String} :
    schema.field? key = none ↔ key ∉ schema.fields.map Field.key := by
  unfold field?
  rw [List.find?_eq_none, List.mem_map]
  simp

/-! ### Texts -/

section Texts

variable {text' : Input} {extra : List Member} {record' : α}

/-- A text is read as the record to which its members lead, in whichever order they are. -/
theorem decode_eq_ok_iff_of_objectOf (h : ObjectOf members text) :
    schema.decode text = .ok record ↔
      ∃ last, schema.Run {} members last ∧ schema.build last = .ok record := by
  obtain ⟨order, hperm, hspells⟩ := h
  rw [decode_eq_ok_iff hspells]
  constructor
  · rintro ⟨last, hrun, hbuild⟩
    exact ⟨last, hrun.perm hperm, hbuild⟩
  · rintro ⟨last, hrun, hbuild⟩
    exact ⟨last, hrun.perm hperm.symm, hbuild⟩

/-- The order of members and blanks make no difference, nor do members that are not known if the
schema is lenient. -/
theorem decode_eq_ok_of_unknown (h : ObjectOf members text) (h' : ObjectOf (members ++ extra) text')
    (hunknown : extra = [] ∨
      schema.strict = false ∧ ∀ member ∈ extra, member.key ∉ schema.fields.map Field.key)
    (hread : schema.decode text = .ok record) : schema.decode text' = .ok record := by
  obtain ⟨last, hrun, hbuild⟩ := (decode_eq_ok_iff_of_objectOf h).1 hread
  have hextra : schema.Run last extra last := by
    rcases hunknown with rfl | ⟨hstrict, hunknown⟩
    · exact .nil last
    · exact run_of_unknown hstrict fun member hmember =>
        field?_eq_none_iff.2 (hunknown member hmember)
  exact (decode_eq_ok_iff_of_objectOf h').2 ⟨last, hrun.append hextra, hbuild⟩

/-- Of two texts of which one has one more known member, one is not read. -/
theorem decode_ne_ok_of_second
    (hcomplete : ∀ {last record}, schema.build last = .ok record →
      ∀ field ∈ schema.fields, last.has field = true)
    (h : ObjectOf members text) (h' : ObjectOf (member :: members) text')
    (hknown : member.key ∈ schema.fields.map Field.key)
    (hread : schema.decode text = .ok record) : schema.decode text' ≠ .ok record' := by
  intro hread'
  obtain ⟨last, hrun, hbuild⟩ := (decode_eq_ok_iff_of_objectOf h).1 hread
  obtain ⟨last', hrun', -⟩ := (decode_eq_ok_iff_of_objectOf h').1 hread'
  cases hfield : schema.field? member.key with
  | none => exact field?_eq_none_iff.1 hfield hknown
  | some field =>
    have hfilled := hcomplete hbuild field (mem_of_field?_eq_some hfield)
    exact hrun.not_second hfilled hfield hrun'

/-- A text with a member that is unknown to a strict schema is not read. -/
theorem decode_ne_ok_of_unknown (hstrict : schema.strict = true) (h : ObjectOf members text)
    (hmember : member ∈ members) (hunknown : member.key ∉ schema.fields.map Field.key) :
    schema.decode text ≠ .ok record := by
  intro hread
  obtain ⟨last, hrun, -⟩ := (decode_eq_ok_iff_of_objectOf h).1 hread
  obtain ⟨field, hfield⟩ := hrun.exists_field hstrict hmember
  exact absurd (hfield.symm.trans (field?_eq_none_iff.2 hunknown)) nofun

end Texts

end Schema

/-- A product has all its fields. -/
theorem Product.has_of_build {last : Members} {product : Product}
    (h : Product.schema.build last = .ok product) :
    ∀ field ∈ Product.schema.fields, last.has field = true := by
  obtain ⟨id, name, info⟩ := last
  intro field _
  cases id with
  | none => cases h
  | some id =>
    cases name with
    | none => cases h
    | some name =>
      cases info with
      | none => cases h
      | some info => cases field <;> rfl

/-- **Products are read from members in any order, and from no others than their own.** Every object
from which a product is read spells members, and then
* the product is read from every text that has these members in any order, with any blanks, and with
  any further members whose keys are not those of a product, whatever their values are;
* no product is read once one of the three known members is there a second time;
* no product is read once one of the three is taken away.

The same holds of drafts as far as order and blanks go, but no draft is read once a member is there
whose key is not that of a draft. -/
theorem members_in_any_order :
    (∀ text input product, skipBlanks text = Byte.openBrace :: input →
      Product.decode text = .ok product → ∃ members, ObjectOf members text) ∧
    (∀ members text product, ObjectOf members text → Product.decode text = .ok product →
      (∀ extra text', (∀ member ∈ extra, member.key ∉ ["id", "name", "additionalInfo"]) →
        ObjectOf (members ++ extra) text' → Product.decode text' = .ok product) ∧
      (∀ member text', member.key ∈ ["id", "name", "additionalInfo"] →
        ObjectOf (member :: members) text' → ∃ flaw, Product.decode text' = .error flaw) ∧
      (∀ member others text', member.key ∈ ["id", "name", "additionalInfo"] →
        members.Perm (member :: others) → ObjectOf others text' →
          ∃ flaw, Product.decode text' = .error flaw)) ∧
    (∀ text input draft, skipBlanks text = Byte.openBrace :: input →
      Draft.decode text = .ok draft → ∃ members, ObjectOf members text) ∧
    (∀ members text draft, ObjectOf members text → Draft.decode text = .ok draft →
      (∀ text', ObjectOf members text' → Draft.decode text' = .ok draft) ∧
      (∀ extra text', (∃ member ∈ extra, member.key ∉ ["name", "additionalInfo"]) →
        ObjectOf (members ++ extra) text' → ∃ flaw, Draft.decode text' = .error flaw)) := by
  refine ⟨?_, ?_, ?_, ?_⟩
  · intro text input product hskip hread
    exact Schema.exists_objectOf hskip hread
  · intro members text product h hread
    refine ⟨?_, ?_, ?_⟩
    · intro extra text' hunknown h'
      exact Schema.decode_eq_ok_of_unknown h h' (.inr ⟨rfl, hunknown⟩) hread
    · intro member text' hknown h'
      exact exists_error_of_forall_ne fun _ =>
        Schema.decode_ne_ok_of_second Product.has_of_build h h' hknown hread
    · intro member others text' hknown hperm h'
      exact exists_error_of_forall_ne fun _ hread' =>
        Schema.decode_ne_ok_of_second Product.has_of_build h' (h.perm hperm) hknown hread' hread
  · intro text input draft hskip hread
    exact Schema.exists_objectOf hskip hread
  · intro members text draft h hread
    refine ⟨?_, ?_⟩
    · intro text' h'
      rw [← List.append_nil members] at h'
      exact Schema.decode_eq_ok_of_unknown h h' (.inl rfl) hread
    · rintro extra text' ⟨member, hmember, hunknown⟩ h'
      exact exists_error_of_forall_ne fun _ =>
        Schema.decode_ne_ok_of_unknown rfl h' (List.mem_append_right members hmember) hunknown

/-- The members of a product in another order, set apart by blanks, and with one more that has
brackets in its value. Without the identifier they are those of a draft, which the identifier keeps
from being read. -/
theorem members_in_any_order_nested :
    (∃ members extra : List Member, members.map Member.key = ["id", "name", "additionalInfo"] ∧
      extra.map Member.key = ["x"] ∧
      ObjectOf members
        (Utf8.bytes "\x7b\"id\":1,\"name\":\"a\",\"additionalInfo\":\"b\"\x7d") ∧
      ObjectOf (members ++ extra) (Utf8.bytes (" \x7b \"additionalInfo\" : \"b\" , " ++
        "\"x\" : [ null , \x7b \"y\" : -1.5 \x7d ] , \"id\" : 1 , \"name\" : \"a\" \x7d")) ∧
      Product.decode (Utf8.bytes (" \x7b \"additionalInfo\" : \"b\" , " ++
        "\"x\" : [ null , \x7b \"y\" : -1.5 \x7d ] , \"id\" : 1 , \"name\" : \"a\" \x7d")) =
          .ok ⟨1, "a", "b"⟩) ∧
    ∃ members extra : List Member, members.map Member.key = ["name", "additionalInfo"] ∧
      extra.map Member.key = ["id"] ∧
      ObjectOf members (Utf8.bytes "\x7b\"name\":\"a\",\"additionalInfo\":\"b\"\x7d") ∧
      ObjectOf members
        (Utf8.bytes " \x7b \"additionalInfo\" : \"b\" , \"name\" : \"a\" \x7d") ∧
      Draft.decode (Utf8.bytes " \x7b \"additionalInfo\" : \"b\" , \"name\" : \"a\" \x7d") =
        .ok ⟨"a", "b"⟩ ∧
      ObjectOf (members ++ extra)
        (Utf8.bytes "\x7b\"id\":1,\"name\":\"a\",\"additionalInfo\":\"b\"\x7d") ∧
      ∃ flaw, Draft.decode
        (Utf8.bytes "\x7b\"id\":1,\"name\":\"a\",\"additionalInfo\":\"b\"\x7d") = .error flaw := by
  have htext : ∀ x, IsPlain x → Quotable [x] := fun x hx => .plain hx .nil
  have ha : Quotable [0x61] := htext _ ⟨by decide, by decide, by decide⟩
  have hb : Quotable [0x62] := htext _ ⟨by decide, by decide, by decide⟩
  have hy : Quotable [0x79] := htext _ ⟨by decide, by decide, by decide⟩
  have hwhole : Whole [0x31] := .digits (by decide) (by decide) nofun
  have hone : Scalar [0x31] := .number (Unsigned.intro hwhole .none .none :)
  have hfraction : Fraction [Byte.point, 0x35] := .some ⟨nofun, List.forall_mem_singleton.2 rfl⟩
  have hhalves : Scalar [Byte.minus, 0x31, Byte.point, 0x35] :=
    .negative (Unsigned.intro hwhole hfraction .none :)
  -- the value of the unknown member, from the inside
  let object : Part := ⟨[], [[Byte.openBrace], quoted [0x79], [Byte.colon],
    [Byte.minus, 0x31, Byte.point, 0x35], [Byte.closeBrace]]⟩
  have hobject : Value object.value :=
    @Value.bracketed .object
      [⟨[quoted [0x79], [Byte.colon]], [[Byte.minus, 0x31, Byte.point, 0x35]]⟩]
      (List.forall_mem_singleton.2 (.object hy)) (List.forall_mem_singleton.2 (.scalar hhalves))
  let null : Part := ⟨[], [Byte.n :: restOfNull]⟩
  have hlist := @Value.bracketed .list [null, object]
    (List.forall_mem_cons.2 ⟨.list, List.forall_mem_singleton.2 .list⟩)
    (List.forall_mem_cons.2 ⟨.scalar .null, List.forall_mem_singleton.2 hobject⟩)
  let id := Member.written "id" [[0x31]] (.scalar hone)
  let name := Member.written "name" [quoted [0x61]] (.scalar (.text ha))
  let info := Member.written "additionalInfo" [quoted [0x62]] (.scalar (.text hb))
  let other := Member.written "x" _ hlist
  have hnone : Blank [] := nofun
  have hspace : Blank [0x20] := List.forall_mem_singleton.2 rfl
  have htight : ObjectOf [id, name, info]
      (Utf8.bytes "\x7b\"id\":1,\"name\":\"a\",\"additionalInfo\":\"b\"\x7d") := by
    have hspells := spellsObject_flatMap hnone [id, name, info]
    exact ⟨_, .refl _, hspells⟩
  have hloose : ObjectOf ([id, name, info] ++ [other])
      (Utf8.bytes (" \x7b \"additionalInfo\" : \"b\" , " ++
        "\"x\" : [ null , \x7b \"y\" : -1.5 \x7d ] , \"id\" : 1 , \"name\" : \"a\" \x7d")) := by
    have hspells := spellsObject_flatMap hspace [info, other, id, name]
    have hperm : [info, other, id, name].Perm ([id, name, info] ++ [other]) :=
      (@List.perm_append_comm _ [info, other] [id, name]).trans (.cons _ (.cons _ (.refl _)))
    exact ⟨_, hperm, hspells⟩
  have hread : Product.decode
      (Utf8.bytes "\x7b\"id\":1,\"name\":\"a\",\"additionalInfo\":\"b\"\x7d") =
        .ok ⟨1, "a", "b"⟩ := Product.decode_encode ⟨1, "a", "b"⟩
  have htight' : ObjectOf [name, info]
      (Utf8.bytes "\x7b\"name\":\"a\",\"additionalInfo\":\"b\"\x7d") := by
    have hspells := spellsObject_flatMap hnone [name, info]
    exact ⟨_, .refl _, hspells⟩
  have hloose' : ObjectOf [name, info]
      (Utf8.bytes " \x7b \"additionalInfo\" : \"b\" , \"name\" : \"a\" \x7d") := by
    have hspells := spellsObject_flatMap hspace [info, name]
    exact ⟨_, .swap _ _ _, hspells⟩
  have hread' : Draft.decode (Utf8.bytes "\x7b\"name\":\"a\",\"additionalInfo\":\"b\"\x7d") =
      .ok ⟨"a", "b"⟩ := Draft.decode_encode ⟨"a", "b"⟩
  have hidentified := htight.perm (@List.perm_append_comm _ [id] [name, info])
  refine ⟨⟨[id, name, info], [other], rfl, rfl, htight, hloose, ?_⟩,
    [name, info], [id], rfl, rfl, htight', hloose', ?_, hidentified, ?_⟩
  · refine (members_in_any_order.2.1 _ _ _ htight hread).1 [other] _ ?_ hloose
    exact List.forall_mem_singleton.2 (show "x" ∉ ["id", "name", "additionalInfo"] by decide)
  · exact (members_in_any_order.2.2.2 _ _ _ htight' hread').1 _ hloose'
  · refine (members_in_any_order.2.2.2 _ _ _ htight' hread').2 [id] _ ?_ hidentified
    exact ⟨id, List.mem_singleton.2 rfl, show "id" ∉ ["name", "additionalInfo"] by decide⟩

end Catalogue
