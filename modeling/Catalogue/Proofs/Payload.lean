import Catalogue.Http.Parameter
import Catalogue.Proofs.Spelling

/-!
# The grammar of request bodies

A body is accepted if it spells a draft: as an object with just the two members, in either order, or
as a list of the two texts. One member of an object fills a free field
(`Draft.readMember_eq_ok_iff`), and so members are read to their end if each of them does
(`Draft.readMembers_eq_ok_iff`); both fields are filled after two of them, and a third has no place.
-/

namespace Catalogue

open Json

/-- The token sequences that spell a draft. -/
def Draft.spellings (draft : Draft) : List (List Token) :=
  let name : List Token := [.text "name", .mark Byte.colon, .text draft.name]
  let info : List Token := [.text "additionalInfo", .mark Byte.colon, .text draft.info]
  [[.mark Byte.openBrace] ++ name ++ [.mark Byte.comma] ++ info ++ [.mark Byte.closeBrace],
    [.mark Byte.openBrace] ++ info ++ [.mark Byte.comma] ++ name ++ [.mark Byte.closeBrace],
    [.mark Byte.openBracket, .text draft.name, .mark Byte.comma, .text draft.info,
      .mark Byte.closeBracket]]

/-- Whether a body spells a draft that is complete. -/
def Draft.SpelledBy (draft : Draft) (body : Input) : Prop :=
  (∃ tokens ∈ draft.spellings, Spells tokens body) ∧ draft.name ≠ "" ∧ draft.info ≠ ""

/-- The fields read so far, and one more that is a text. -/
def Members.put (seen : Members) (field : Field) (value : String) : Members :=
  match field with
  | .id => seen
  | .name => { seen with name := some value }
  | .info => { seen with info := some value }

namespace Draft

/-- Texts that fill free fields of a draft one after another. -/
inductive Fills : Members → List (Field × String) → Members → Prop
  | nil (seen : Members) : Fills seen [] seen
  | cons {seen last : Members} {field : Field} {value : String} {members : List (Field × String)} :
      field ∈ Draft.schema.fields → seen.has field = false →
        Fills (seen.put field value) members last → Fills seen ((field, value) :: members) last

/-- The tokens of members up to the closing brace. -/
def membersTokens (first : Bool) : List (Field × String) → List Token
  | [] => [.mark Byte.closeBrace]
  | (field, value) :: members =>
    (separator first ++ [.text field.key]) ++
      ([.mark Byte.colon, .text value] ++ membersTokens false members)

variable {seen next last : Members} {field : Field} {key : String} {input rest : Input}

/-! ### One field -/

theorem field?_eq_some_iff :
    Draft.schema.field? key = some field ↔ field ∈ Draft.schema.fields ∧ key = field.key := by
  constructor
  · intro h
    have hkey := List.find?_some (p := fun field : Field => field.key == key) h
    exact ⟨List.mem_of_find?_eq_some h, (eq_of_beq hkey).symm⟩
  · rintro ⟨hfield, rfl⟩
    cases field with
    | id => exact absurd hfield (by decide)
    | name => rfl
    | info => rfl

theorem read_eq_ok_iff (h : field ∈ Draft.schema.fields) :
    seen.read field input = .ok (next, rest) ↔
      ∃ value, Leading [.text value] input rest ∧ next = seen.put field value := by
  have hmap : ∀ put : String → Members,
      ((readTextValue input).map fun read => (put read.1, read.2)) = .ok (next, rest) ↔
        ∃ value, Leading [.text value] input rest ∧ next = put value := by
    intro put
    simp only [← readTextValue_eq_ok_iff]
    cases readTextValue input with
    | error flaw => simp [Except.map]
    | ok read =>
      obtain ⟨value, left⟩ := read
      simp [Except.map, eq_comm, and_comm]
  cases field with
  | id => exact absurd h (by decide)
  | name => exact hmap fun value => { seen with name := some value }
  | info => exact hmap fun value => { seen with info := some value }

/-- **What one member does**: its key names a field that is still free, and its value, a text, goes
there. -/
theorem readMember_eq_ok_iff :
    Draft.schema.readMember seen key input = .ok (next, rest) ↔
      ∃ field value, field ∈ Draft.schema.fields ∧ key = field.key ∧ seen.has field = false ∧
        Leading [.mark Byte.colon, .text value] input rest ∧ next = seen.put field value := by
  constructor
  · intro h
    unfold Schema.readMember at h
    split at h
    · rename_i field hfield
      obtain ⟨hmem, hkey⟩ := field?_eq_some_iff.1 hfield
      split_ifs at h with hhas
      split at h
      · rename_i mid hcolon
        obtain ⟨value, hvalue, hnext⟩ := (read_eq_ok_iff hmem).1 h
        have hleading := (readColon_eq_ok_iff.1 hcolon).append hvalue
        exact ⟨field, value, hmem, hkey, by simpa using hhas, hleading, hnext⟩
      · cases h
    · rw [if_pos (show Draft.schema.strict = true from rfl)] at h
      cases h
  · rintro ⟨field, value, hmem, hkey, hhas, hleading, hnext⟩
    obtain ⟨mid, hcolon, hvalue⟩ := leading_cons_iff.1 hleading
    unfold Schema.readMember
    rw [field?_eq_some_iff.2 ⟨hmem, hkey⟩]
    dsimp only
    rw [hhas, readColon_eq_ok_iff.2 hcolon]
    exact (read_eq_ok_iff hmem).2 ⟨value, hvalue, hnext⟩

/-! ### Objects -/

theorem Fills.readMembers_eq_ok {members : List (Field × String)} (h : Fills seen members last)
    {first : Bool} {limit : Nat} (hlimit : members.length < limit)
    (hleading : Leading (membersTokens first members) input rest) :
    Draft.schema.readMembers first seen input limit = .ok (last, rest) := by
  induction h generalizing first input limit with
  | nil seen =>
    obtain ⟨limit, rfl⟩ : ∃ n, limit = n + 1 := ⟨limit - 1, by omega⟩
    rw [Schema.readMembers, nextMember_eq_close_iff.2 hleading]
  | @cons seen last field value members hmem hhas _ ih =>
    obtain ⟨limit, rfl⟩ : ∃ n, limit = n + 1 := ⟨limit - 1, by omega⟩
    rw [List.length_cons] at hlimit
    obtain ⟨mid, hkey, hbehind⟩ := leading_append_iff.1 hleading
    obtain ⟨after, hvalue, hothers⟩ := leading_append_iff.1 hbehind
    have hmember := readMember_eq_ok_iff.2 ⟨field, value, hmem, rfl, hhas, hvalue, rfl⟩
    rw [Schema.readMembers, nextMember_eq_key_iff.2 hkey]
    dsimp only
    rw [hmember]
    exact ih (by omega) hothers

theorem exists_fills {first : Bool} {limit : Nat}
    (h : Draft.schema.readMembers first seen input limit = .ok (last, rest)) :
    ∃ members, Fills seen members last ∧ Leading (membersTokens first members) input rest := by
  induction limit generalizing first seen input with
  | zero => cases h
  | succ limit ih =>
    rw [Schema.readMembers] at h
    split at h
    · cases h
    · rename_i after hclose
      cases h
      exact ⟨[], .nil _, nextMember_eq_close_iff.1 hclose⟩
    · rename_i key mid hkey
      split at h
      · cases h
      · rename_i next after hmember
        obtain ⟨field, value, hmem, rfl, hhas, hvalue, rfl⟩ := readMember_eq_ok_iff.1 hmember
        obtain ⟨members, hfills, hothers⟩ := ih h
        have hleading := (nextMember_eq_key_iff.1 hkey).append (hvalue.append hothers)
        exact ⟨_, .cons hmem hhas hfills, hleading⟩

/-- **What members do one after another**: each fills a field that is still free. -/
theorem readMembers_eq_ok_iff {first : Bool} :
    Draft.schema.readMembers first seen input (input.length + 1) = .ok (last, rest) ↔
      ∃ members, Fills seen members last ∧ Leading (membersTokens first members) input rest := by
  constructor
  · exact exists_fills
  · rintro ⟨members, hfills, hleading⟩
    have hlength : members.length ≤ (membersTokens first members).length := by
      clear hfills hleading
      induction members generalizing first with
      | nil => exact Nat.zero_le _
      | cons member members ih =>
        have hrest := @ih false
        simp only [membersTokens, List.length_cons, List.length_append]
        omega
    have htokens := hleading.length_le
    exact hfills.readMembers_eq_ok (by omega) hleading

/-- Where both fields are filled there is no place for one more. -/
theorem Fills.eq_nil {members : List (Field × String)} (h : Fills seen members last)
    (hname : seen.has .name = true) (hinfo : seen.has .info = true) :
    members = [] ∧ last = seen := by
  cases h with
  | nil => exact ⟨rfl, rfl⟩
  | @cons _ _ field _ _ hmem hhas _ =>
    cases field with
    | id => exact absurd hmem (by decide)
    | name => cases hname.symm.trans hhas
    | info => cases hinfo.symm.trans hhas

/-- Both fields are filled by two members, in either order. -/
theorem fills_toDraft_iff {members : List (Field × String)} {draft : Draft} :
    (∃ last, Fills {} members last ∧ last.toDraft = .ok draft) ↔
      members = [(.name, draft.name), (.info, draft.info)] ∨
        members = [(.info, draft.info), (.name, draft.name)] := by
  have hname : Field.name ∈ Draft.schema.fields := by decide
  have hinfo : Field.info ∈ Draft.schema.fields := by decide
  constructor
  · rintro ⟨last, hfills, hdraft⟩
    cases hfills with
    | nil => cases hdraft
    | @cons _ _ field value members hmem _ hrest =>
      cases hrest with
      | nil => cases field <;> cases hdraft
      | @cons _ _ field' value' members hmem' hhas' hrest =>
        cases field with
        | id => exact absurd hmem (by decide)
        | name =>
          cases field' with
          | id => exact absurd hmem' (by decide)
          | name => cases hhas'
          | info =>
            obtain ⟨rfl, rfl⟩ := hrest.eq_nil rfl rfl
            cases hdraft
            exact .inl rfl
        | info =>
          cases field' with
          | id => exact absurd hmem' (by decide)
          | name =>
            obtain ⟨rfl, rfl⟩ := hrest.eq_nil rfl rfl
            cases hdraft
            exact .inr rfl
          | info => cases hhas'
  · rintro (rfl | rfl)
    · exact ⟨_, .cons hname rfl (.cons hinfo rfl (.nil _)), rfl⟩
    · exact ⟨_, .cons hinfo rfl (.cons hname rfl (.nil _)), rfl⟩

theorem readObject_eq_ok_iff {draft : Draft} :
    Draft.schema.readObject input = .ok (draft, rest) ↔
      ∃ members, (members = [(.name, draft.name), (.info, draft.info)] ∨
        members = [(.info, draft.info), (.name, draft.name)]) ∧
          Leading (membersTokens true members) input rest := by
  constructor
  · intro h
    unfold Schema.readObject at h
    split at h
    · cases h
    rename_i last after hmembers
    obtain ⟨members, hfills, hleading⟩ := readMembers_eq_ok_iff.1 hmembers
    split at h
    · rename_i draft hbuild
      cases h
      exact ⟨members, fills_toDraft_iff.1 ⟨last, hfills, hbuild⟩, hleading⟩
    · cases h
  · rintro ⟨members, horder, hleading⟩
    obtain ⟨last, hfills, hdraft⟩ := fills_toDraft_iff.2 horder
    unfold Schema.readObject
    rw [readMembers_eq_ok_iff.2 ⟨members, hfills, hleading⟩]
    dsimp only
    rw [show Draft.schema.build last = .ok draft from hdraft]

/-! ### Lists -/

theorem readElements_cons_iff {fields : List Field} {count : Nat}
    (h : field ∈ Draft.schema.fields) :
    Draft.schema.readElements count seen input (field :: fields) = .ok (last, rest) ↔
      ∃ value mid, Leading (separator (count == 0) ++ [.text value]) input mid ∧
        Draft.schema.readElements (count + 1) (seen.put field value) mid fields =
          .ok (last, rest) := by
  constructor
  · intro hread
    rw [Schema.readElements] at hread
    split at hread
    · cases hread
    · cases hread
    · rename_i after hnext
      split at hread
      · cases hread
      · rename_i next mid hvalue
        obtain ⟨value, hleading, rfl⟩ := (read_eq_ok_iff h).1 hvalue
        have htext := readTextValue_eq_ok_iff.2 hleading
        exact ⟨value, mid, nextElement_text_iff.1 ⟨after, hnext, htext⟩, hread⟩
  · rintro ⟨value, mid, hleading, hread⟩
    obtain ⟨after, hnext, htext⟩ := nextElement_text_iff.2 hleading
    have hvalue : seen.read field after = .ok (seen.put field value, mid) :=
      (read_eq_ok_iff h).2 ⟨value, readTextValue_eq_ok_iff.1 htext, rfl⟩
    rw [Schema.readElements, hnext]
    dsimp only
    rw [hvalue]
    exact hread

theorem readElements_nil_iff {count : Nat} :
    Draft.schema.readElements count seen input [] = .ok (last, rest) ↔
      Leading [.mark Byte.closeBracket] input rest ∧ last = seen := by
  rw [Schema.readElements, ← closeList_eq_ok_iff]
  cases closeList input with
  | error flaw => simp [Except.map]
  | ok after => simp [Except.map, eq_comm, and_comm]

theorem readList_eq_ok_iff {draft : Draft} :
    Draft.schema.readList input = .ok (draft, rest) ↔
      Leading ([.text draft.name] ++ ([.mark Byte.comma, .text draft.info] ++
        [.mark Byte.closeBracket])) input rest := by
  have hname : Field.name ∈ Draft.schema.fields := by decide
  have hinfo : Field.info ∈ Draft.schema.fields := by decide
  have helements : ∀ last, Draft.schema.readElements 0 {} input Draft.schema.fields =
      .ok (last, rest) ↔ ∃ name info, last = ⟨none, some name, some info⟩ ∧
        Leading ([.text name] ++ ([.mark Byte.comma, .text info] ++ [.mark Byte.closeBracket]))
          input rest := by
    intro last
    constructor
    · intro h
      obtain ⟨name, mid, hfirst, hbehind⟩ := (readElements_cons_iff hname).1 h
      obtain ⟨info, after, hsecond, hend⟩ := (readElements_cons_iff hinfo).1 hbehind
      obtain ⟨hclose, rfl⟩ := readElements_nil_iff.1 hend
      exact ⟨name, info, rfl, hfirst.append (hsecond.append hclose)⟩
    · rintro ⟨name, info, rfl, hleading⟩
      obtain ⟨mid, hfirst, hbehind⟩ := leading_append_iff.1 hleading
      obtain ⟨after, hsecond, hclose⟩ := leading_append_iff.1 hbehind
      refine (readElements_cons_iff hname).2 ⟨name, mid, hfirst, ?_⟩
      exact (readElements_cons_iff hinfo).2
        ⟨info, after, hsecond, readElements_nil_iff.2 ⟨hclose, rfl⟩⟩
  constructor
  · intro h
    unfold Schema.readList at h
    split at h
    · cases h
    rename_i last after hread
    split at h
    · rename_i draft hbuild
      cases h
      obtain ⟨name, info, rfl, hleading⟩ := (helements last).1 hread
      cases hbuild
      exact hleading
    · cases h
  · intro h
    unfold Schema.readList
    rw [(helements _).2 ⟨draft.name, draft.info, rfl, h⟩]
    rfl

/-! ### Bodies -/

theorem read_eq_ok_iff_spellings {draft : Draft} :
    Draft.schema.read input = .ok (draft, rest) ↔
      ∃ tokens ∈ draft.spellings, Leading tokens input rest := by
  have hbrace : ∀ members, Leading (.mark Byte.openBrace :: membersTokens true members) input rest ↔
      ∃ left, skipBlanks input = Byte.openBrace :: left ∧
        Leading (membersTokens true members) left rest := by
    intro members
    rw [leading_cons_iff]
    simp only [leading_mark_iff (show Byte.isBlank Byte.openBrace = false by decide)]
  have hbracket : ∀ tokens, Leading (.mark Byte.openBracket :: tokens) input rest ↔
      ∃ left, skipBlanks input = Byte.openBracket :: left ∧ Leading tokens left rest := by
    intro tokens
    rw [leading_cons_iff]
    simp only [leading_mark_iff (show Byte.isBlank Byte.openBracket = false by decide)]
  have hspellings : draft.spellings =
      [.mark Byte.openBrace :: membersTokens true [(.name, draft.name), (.info, draft.info)],
        .mark Byte.openBrace :: membersTokens true [(.info, draft.info), (.name, draft.name)],
        .mark Byte.openBracket :: ([.text draft.name] ++ ([.mark Byte.comma, .text draft.info] ++
          [.mark Byte.closeBracket]))] := rfl
  have hmarks : Byte.openBracket ≠ Byte.openBrace := by decide
  rw [hspellings]
  simp only [List.mem_cons, List.not_mem_nil, or_false, exists_eq_or_imp, exists_eq_left, hbrace,
    hbracket]
  unfold Schema.read
  cases skipBlanks input with
  | nil => simp
  | cons x left =>
    dsimp only
    by_cases hlist : x = Byte.openBracket
    · simp [hlist, hmarks, readList_eq_ok_iff]
    · by_cases hobject : x = Byte.openBrace
      · simp [hobject, hmarks.symm, readObject_eq_ok_iff]
      · simp [hlist, hobject]

/-- **What a draft is decoded from**: the texts that spell it, and no others. -/
theorem decode_eq_ok_iff {draft : Draft} :
    Draft.decode input = .ok draft ↔ ∃ tokens ∈ draft.spellings, Spells tokens input := by
  constructor
  · intro h
    unfold Draft.decode Schema.decode at h
    split at h
    · cases h
    rename_i record left hread
    split at h
    · rename_i hskip
      cases h
      obtain ⟨tokens, hmem, hleading⟩ := read_eq_ok_iff_spellings.1 hread
      exact ⟨tokens, hmem, left, hleading, skipBlanks_eq_nil_iff.1 hskip⟩
    · cases h
  · rintro ⟨tokens, hmem, left, hleading, hblank⟩
    unfold Draft.decode Schema.decode
    rw [read_eq_ok_iff_spellings.2 ⟨tokens, hmem, hleading⟩]
    dsimp only
    rw [skipBlanks_eq_nil_iff.2 hblank]

theorem isComplete_iff {draft : Draft} :
    draft.isComplete = true ↔ draft.name ≠ "" ∧ draft.info ≠ "" := by
  simp [isComplete]

end Draft

namespace Http

theorem readBody_eq_ok_iff {body : List UInt8} {draft : Draft} :
    readBody body = .ok draft ↔ draft.SpelledBy body := by
  unfold Draft.SpelledBy
  rw [← Draft.decode_eq_ok_iff, ← Draft.isComplete_iff]
  unfold readBody
  cases Draft.decode body with
  | error flaw => simp
  | ok read =>
    dsimp only
    split_ifs with hcomplete
    · simp only [Except.ok.injEq]
      constructor
      · rintro rfl
        exact ⟨rfl, hcomplete⟩
      · exact fun h => h.1
    · simp only [Except.ok.injEq]
      constructor
      · rintro ⟨⟩
      · rintro ⟨rfl, h⟩
        exact absurd h hcomplete

/-- All bodies that are refused are refused alike, up to the detail for the log. -/
theorem exists_invalidBody {body : List UInt8} {e : ApiError} (h : readBody body = .error e) :
    ∃ detail, e = .invalidBody detail := by
  unfold readBody at h
  split at h
  · cases h
    exact ⟨_, rfl⟩
  · split_ifs at h
    cases h
    exact ⟨_, rfl⟩

/-- **The grammar of request bodies.** A body is accepted as a draft if it spells that draft and
both its texts say something: as an object with just the two members in either order, or as a list
of the two texts, with blanks wherever they may stand and characters escaped in any of the ways
there are. All other bodies are refused. -/
theorem readBody_grammar (body : List UInt8) :
    (∀ draft, readBody body = .ok draft ↔ draft.SpelledBy body) ∧
      ((∀ draft : Draft, ¬ draft.SpelledBy body) → ∃ e, readBody body = .error e ∧
        e.response.status = 400 ∧
          e.response.body = "\x7b\"error\":\"Invalid request body\"\x7d") := by
  refine ⟨fun draft => readBody_eq_ok_iff, fun hnone => ?_⟩
  cases hbody : readBody body with
  | ok draft => exact absurd (readBody_eq_ok_iff.1 hbody) (hnone draft)
  | error e =>
    obtain ⟨detail, rfl⟩ := exists_invalidBody hbody
    refine ⟨_, rfl, rfl, ?_⟩
    show String.ofList (writeObject [("error", writeText "Invalid request body")]) = _
    decide

/-- Blanks, the members the other way round, and a letter of a key by its number. -/
example :
    let body := "\n\x7b \"additionalInfo\":\"\\ud834\\udd1e\",\t\"n\\u0061me\" :\"tea\"\x7d "
    readBody (Utf8.bytes body) = .ok ⟨"tea", "𝄞"⟩ := by
  decide +kernel

end Http

end Catalogue
