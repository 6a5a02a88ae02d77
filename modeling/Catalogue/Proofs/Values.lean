import Catalogue.Proofs.Words
import Mathlib.Data.List.DropRight

/-!
# Values that are passed over

Of a member that a record does not know the value is passed over, however deeply it is nested. A
value is a single word, or brackets around parts with commas between them (`Json.Value`).

The reader that passes over a value takes just the words of one value, whatever brackets are open
around it: `Json.Value.passed` by induction on the value, and `Json.exists_value` by induction on
the length of the input. For the latter, what the open brackets still require is a sequence of words
as well (`Json.Closes`).
-/

namespace Catalogue

namespace Json

/-- The byte that opens a bracket. -/
def Bracket.opening : Bracket → UInt8
  | .list => Byte.openBracket
  | .object => Byte.openBrace

/-- A part inside a bracket: what stands in front of its value, and the value. -/
structure Part where
  lead : List Input
  value : List Input

/-- The words of a part. -/
def Part.words (part : Part) : List Input := part.lead ++ part.value

/-- What stands in front of a value: nothing in a list, a key and a colon in an object. -/
inductive Bracket.Lead : Bracket → List Input → Prop
  | list : Lead .list []
  | object {word : Input} : Quotable word → Lead .object [quoted word, [Byte.colon]]

/-- Parts with commas between them, up to a closing byte. -/
def enclosed (first : Bool) (close : UInt8) : List (List Input) → List Input
  | [] => [[close]]
  | part :: parts =>
    (if first then [] else [[Byte.comma]]) ++ (part ++ enclosed false close parts)

/-- **The words of a value**: a single one, or brackets around parts. -/
inductive Value : List Input → Prop
  | scalar {word : Input} : Scalar word → Value [word]
  | bracketed {b : Bracket} {parts : List Part} :
      (∀ part ∈ parts, b.Lead part.lead) → (∀ part ∈ parts, Value part.value) →
        Value ([b.opening] :: enclosed true b.closing (parts.map Part.words))

/-- Whether a part may stand inside a bracket. -/
structure Part.Fits (part : Part) (b : Bracket) : Prop where
  lead : b.Lead part.lead
  value : Value part.value

section Values

variable {b : Bracket} {parts : List Part} {part : Part} {opened : List Bracket}
  {words more : List Input} {input left rest : Input} {x : UInt8}

/-! ### Steps of the reader -/

theorem skipValue_eq_ok_iff :
    skipValue opened input = .ok rest ↔ ∃ x left, skipBlanks input = x :: left ∧
      ((∃ b, Bracket.opened? x = some b ∧ skipFirst b opened left = .ok rest) ∨
        Bracket.opened? x = none ∧
          ∃ mid, skipScalar x left = .ok mid ∧ skipAfter opened mid = .ok rest) := by
  rw [skipValue]
  split
  · rename_i hskip
    simp [hskip]
  · rename_i x left hskip
    rw [hskip]
    cases hx : Bracket.opened? x with
    | some b => simp [hx]
    | none =>
      dsimp only
      split
      · rename_i mid hscalar
        simp [hx, hscalar]
      · rename_i flaw hscalar
        simp [hx, hscalar]

theorem skipFirst_eq_ok_iff :
    skipFirst b opened input = .ok rest ↔ ∃ x left, skipBlanks input = x :: left ∧
      ((x = b.closing ∧ skipAfter opened left = .ok rest) ∨
        x ≠ b.closing ∧
          ∃ mid, b.skipKey (x :: left) = .ok mid ∧ skipValue (b :: opened) mid = .ok rest) := by
  rw [skipFirst]
  split
  · rename_i hskip
    simp [hskip]
  · rename_i x left hskip
    rw [hskip]
    split_ifs with hx
    · simp [hx]
    · split
      · rename_i mid hkey
        simp [hx, hkey]
      · rename_i flaw hkey
        simp [hx, hkey]

theorem skipAfter_cons_eq_ok_iff :
    skipAfter (b :: opened) input = .ok rest ↔ ∃ x left, skipBlanks input = x :: left ∧
      ((x = b.closing ∧ skipAfter opened left = .ok rest) ∨
        x = Byte.comma ∧
          ∃ mid, b.skipKey left = .ok mid ∧ skipValue (b :: opened) mid = .ok rest) := by
  have hcomma : Byte.comma ≠ b.closing := by cases b <;> decide
  rw [skipAfter]
  split
  · rename_i hskip
    simp [hskip]
  · rename_i x left hskip
    rw [hskip]
    split_ifs with hx hc
    · simp [hx, hcomma.symm]
    · rw [hc] at hx ⊢
      split
      · rename_i mid hkey
        simp [hx, hkey]
      · rename_i flaw hkey
        simp [hx, hkey]
    · simp [hx, hc]

/-! ### Parts -/

/-- What does not go on with a number: blanks in front of a comma or of a closing byte. -/
theorem ends_of_skipBlanks (hskip : skipBlanks input = x :: left)
    (hx : x = Byte.comma ∨ ∃ b : Bracket, x = b.closing) : Ends input := by
  cases input with
  | nil => trivial
  | cons y tail =>
    by_cases hy : Byte.isBlank y = true
    · unfold Byte.isBlank at hy
      rw [decide_eq_true_eq] at hy
      rcases hy with rfl | rfl | rfl | rfl <;> exact ⟨by decide, by decide, by decide⟩
    · unfold skipBlanks at hskip
      rw [List.dropWhile_cons_of_neg hy] at hskip
      cases hskip
      rcases hx with rfl | ⟨_ | _, rfl⟩ <;> exact ⟨by decide, by decide, by decide⟩

theorem isBlank_opening (b : Bracket) : Byte.isBlank b.opening = false := by
  cases b <;> rfl

theorem isBlank_closing (b : Bracket) : Byte.isBlank b.closing = false := by
  cases b <;> rfl

theorem Bracket.opened?_eq_some_iff : Bracket.opened? x = some b ↔ x = b.opening := by
  constructor
  · intro h
    unfold opened? at h
    split_ifs at h with hbracket hbrace
    · cases h
      exact hbracket
    · cases h
      exact hbrace
  · rintro rfl
    cases b <;> rfl

theorem enclosed_cons (first : Bool) (close : UInt8) (words : List Input)
    (parts : List (List Input)) :
    enclosed first close (words :: parts) =
      (if first then [] else [[Byte.comma]]) ++ (words ++ enclosed false close parts) := rfl

/-- Behind a value inside a bracket a number does not go on. -/
theorem ends_of_enclosed {close : UInt8} {parts : List (List Input)}
    (h : Spaced (enclosed false close parts) input rest)
    (hclose : ∃ b : Bracket, close = b.closing) :
    Ends input := by
  cases parts with
  | nil =>
    obtain ⟨b, rfl⟩ := hclose
    obtain ⟨mid, hskip, -⟩ := (spaced_mark_iff (isBlank_closing b)).1 h
    exact ends_of_skipBlanks hskip (.inr ⟨b, rfl⟩)
  | cons words parts =>
    obtain ⟨mid, hskip, -⟩ := (spaced_mark_iff (by decide)).1 h
    exact ends_of_skipBlanks hskip (.inl rfl)

/-- What stands in front of a value is passed over. -/
theorem skipKey_of_lead (hlead : b.Lead words) (h : Spaced (words ++ more) input rest) :
    ∃ left, b.skipKey input = .ok left ∧ Spaced more left rest := by
  cases hlead with
  | list => exact ⟨input, rfl, h⟩
  | @object word hword =>
    obtain ⟨mid, hskip, hcolon⟩ := (spaced_word_iff (by decide)).1 h
    obtain ⟨left, hskip', hmore⟩ := (spaced_mark_iff (by decide)).1 hcolon
    refine ⟨left, ?_, hmore⟩
    have htext : skipText (word ++ [Byte.quote] ++ mid) = .ok mid :=
      skipText_eq_ok_iff.2 ⟨word, hword, by simp⟩
    have hcolon : readColon mid = .ok left := by
      unfold readColon
      rw [hskip']
      rfl
    show skipKey input = .ok left
    unfold skipKey
    rw [hskip]
    dsimp only
    rw [if_pos rfl, htext]
    exact hcolon

theorem exists_lead (h : b.skipKey input = .ok rest) :
    ∃ lead, b.Lead lead ∧ Spaced lead input rest := by
  cases b with
  | list =>
    cases h
    exact ⟨[], .list, .nil _⟩
  | object =>
    change skipKey input = .ok rest at h
    unfold skipKey at h
    split at h
    · cases h
    rename_i x tail hskip
    split_ifs at h with hquote
    split at h
    · cases h
    rename_i left htext
    obtain ⟨word, hword, rfl⟩ := skipText_eq_ok_iff.1 htext
    refine ⟨_, .object hword, (spaced_word_iff (by decide)).2 ⟨left, ?_, ?_⟩⟩
    · rw [hskip, hquote]
      simp
    · unfold readColon at h
      split at h
      · cases h
      rename_i y tail hskip'
      split_ifs at h with hcolon
      cases h
      exact (spaced_mark_iff (by decide)).2 ⟨rest, hcolon ▸ hskip', .nil rest⟩

/-- A value begins with a byte that is neither a blank nor one that closes a bracket. -/
theorem Value.exists_first (h : Value words) :
    ∃ x tail more, words = (x :: tail) :: more ∧ Begins x := by
  cases h with
  | scalar hscalar =>
    obtain ⟨x, tail, rfl, hx, -⟩ := hscalar.exists_first
    exact ⟨x, tail, [], rfl, hx⟩
  | @bracketed b parts _ _ =>
    exact ⟨b.opening, [], _, rfl, begins_iff.2 (by cases b <;> decide)⟩

/-- So does a part. -/
theorem Part.Fits.exists_first (h : part.Fits b) :
    ∃ x tail more, part.words = (x :: tail) :: more ∧ Begins x := by
  obtain ⟨lead, value⟩ := part
  obtain ⟨hlead, hvalue⟩ := h
  cases hlead with
  | list => exact hvalue.exists_first
  | object => exact ⟨_, _, _, rfl, begins_iff.2 (by decide)⟩

/-- Where the blanks in front are passed over already, nothing changes. -/
theorem spaced_skipBlanks_iff {tail : Input} (hx : Byte.isBlank x = false) :
    Spaced ((x :: tail) :: words) (skipBlanks input) rest ↔
      Spaced ((x :: tail) :: words) input rest := by
  have hagain : skipBlanks (skipBlanks input) = skipBlanks input := List.dropWhile_idempotent _ _
  rw [spaced_word_iff hx, spaced_word_iff hx, hagain]

/-! ### Whole values -/

/-- Whether words are passed over as a value, whatever brackets are open around them. -/
def Passed (words : List Input) : Prop :=
  ∀ opened input mid rest, Spaced words input mid → Ends mid →
    skipAfter opened mid = .ok rest → skipValue opened input = .ok rest

/-- Behind a value the bracket around it is passed over to its end. -/
theorem skipAfter_of_enclosed {mid : Input} (hfits : ∀ part ∈ parts, part.Fits b)
    (hpassed : ∀ part ∈ parts, Passed part.value)
    (h : Spaced (enclosed false b.closing (parts.map Part.words)) input mid)
    (hafter : skipAfter opened mid = .ok rest) : skipAfter (b :: opened) input = .ok rest := by
  rw [skipAfter_cons_eq_ok_iff]
  induction parts generalizing input with
  | nil =>
    obtain ⟨mid, hskip, ⟨⟩⟩ := (spaced_mark_iff (isBlank_closing b)).1 h
    exact ⟨_, mid, hskip, .inl ⟨rfl, hafter⟩⟩
  | cons part parts ih =>
    obtain ⟨hpart, hparts⟩ := List.forall_mem_cons.1 hfits
    obtain ⟨hvalue, hvalues⟩ := List.forall_mem_cons.1 hpassed
    obtain ⟨left, hskip, hbehind⟩ := (spaced_mark_iff (by decide)).1 h
    rw [Part.words, List.append_assoc] at hbehind
    obtain ⟨after, hkey, hbehind⟩ := skipKey_of_lead hpart.lead hbehind
    obtain ⟨next, hhere, hlater⟩ := spaced_append_iff.1 hbehind
    have hnext := skipAfter_cons_eq_ok_iff.2 (ih hparts hvalues hlater)
    have hends := ends_of_enclosed hlater ⟨b, rfl⟩
    exact ⟨_, left, hskip, .inr ⟨rfl, after, hkey, hvalue _ _ _ _ hhere hends hnext⟩⟩

/-- Behind an opening bracket all is passed over to the closing one. -/
theorem skipFirst_of_enclosed {mid : Input} (hfits : ∀ part ∈ parts, part.Fits b)
    (hpassed : ∀ part ∈ parts, Passed part.value)
    (h : Spaced (enclosed true b.closing (parts.map Part.words)) input mid)
    (hafter : skipAfter opened mid = .ok rest) : skipFirst b opened input = .ok rest := by
  rw [skipFirst_eq_ok_iff]
  cases parts with
  | nil =>
    obtain ⟨mid, hskip, ⟨⟩⟩ := (spaced_mark_iff (isBlank_closing b)).1 h
    exact ⟨_, mid, hskip, .inl ⟨rfl, hafter⟩⟩
  | cons part parts =>
    obtain ⟨hpart, hparts⟩ := List.forall_mem_cons.1 hfits
    obtain ⟨hvalue, hvalues⟩ := List.forall_mem_cons.1 hpassed
    obtain ⟨x, tail, more, hfirst, hx⟩ := hpart.exists_first
    rw [List.map_cons, enclosed_cons, if_pos rfl, List.nil_append] at h
    -- the reader is behind the blanks already where it passes over the key
    have hbehind : Spaced (part.words ++ enclosed false b.closing (parts.map Part.words))
        (skipBlanks input) mid := by
      rw [hfirst, List.cons_append] at h ⊢
      exact (spaced_skipBlanks_iff hx.1).2 h
    rw [hfirst, List.cons_append] at h
    obtain ⟨left, hskip, -⟩ := (spaced_word_iff hx.1).1 h
    rw [hskip, Part.words, List.append_assoc] at hbehind
    obtain ⟨after, hkey, hbehind⟩ := skipKey_of_lead hpart.lead hbehind
    obtain ⟨next, hhere, hlater⟩ := spaced_append_iff.1 hbehind
    have hnext := skipAfter_of_enclosed hparts hvalues hlater hafter
    have hends := ends_of_enclosed hlater ⟨b, rfl⟩
    exact ⟨x, _, hskip, .inr ⟨hx.2 b, after, hkey, hvalue _ _ _ _ hhere hends hnext⟩⟩

/-- **A value is passed over**, and nothing behind it. -/
theorem Value.passed (h : Value words) : Passed words := by
  induction h with
  | scalar hscalar =>
    intro opened input mid rest hspaced hends hafter
    obtain ⟨x, tail, rfl, hx, hopened, hscalar⟩ := hscalar.exists_first
    obtain ⟨_, hskip, ⟨⟩⟩ := (spaced_word_iff hx.1).1 hspaced
    exact skipValue_eq_ok_iff.2 ⟨x, _, hskip, .inr ⟨hopened, mid, hscalar _ hends, hafter⟩⟩
  | @bracketed b parts hlead hvalue ih =>
    intro opened input mid rest hspaced _ hafter
    obtain ⟨left, hskip, henclosed⟩ := (spaced_mark_iff (isBlank_opening b)).1 hspaced
    have hfirst : skipFirst b opened left = .ok rest :=
      skipFirst_of_enclosed (fun part hpart => ⟨hlead part hpart, hvalue part hpart⟩) ih henclosed
        hafter
    exact skipValue_eq_ok_iff.2
      ⟨_, left, hskip, .inl ⟨b, Bracket.opened?_eq_some_iff.2 rfl, hfirst⟩⟩

/-! ### What is passed over -/

/-- The words that close brackets, innermost first: for each of them further parts, and the byte
that closes it. -/
inductive Closes : List Bracket → List Input → Prop
  | nil : Closes [] []
  | cons {b : Bracket} {opened : List Bracket} {parts : List Part} {words : List Input} :
      (∀ part ∈ parts, part.Fits b) → Closes opened words →
        Closes (b :: opened) (enclosed false b.closing (parts.map Part.words) ++ words)

/-- A value inside a bracket is a part of it, with the key in front of it if there is one. -/
theorem exists_part {mid : Input} (hkey : b.skipKey input = .ok mid)
    (hvalue : ∃ words more, Value words ∧ Closes (b :: opened) more ∧
      Spaced (words ++ more) mid rest) :
    ∃ (part : Part) (parts : List Part) (more : List Input), part.Fits b ∧
      (∀ part ∈ parts, part.Fits b) ∧ Closes opened more ∧
        Spaced (part.words ++ (enclosed false b.closing (parts.map Part.words) ++ more))
          input rest := by
  obtain ⟨lead, hlead, hfront⟩ := exists_lead hkey
  obtain ⟨words, _, hvalue, hcloses, hmore⟩ := hvalue
  cases hcloses with
  | cons hfits hcloses =>
    refine ⟨⟨lead, words⟩, _, _, ⟨hlead, hvalue⟩, hfits, hcloses, ?_⟩
    rw [Part.words, List.append_assoc]
    exact spaced_append_iff.2 ⟨mid, hfront, hmore⟩

/-- **What is passed over is a value**, and then what closes the brackets around it. Every call of
one reader by the other is made on a shorter input. -/
theorem exists_value_closes (input : Input) :
    (∀ opened rest, skipValue opened input = .ok rest →
      ∃ words more, Value words ∧ Closes opened more ∧ Spaced (words ++ more) input rest) ∧
    (∀ opened rest, skipAfter opened input = .ok rest →
      ∃ more, Closes opened more ∧ Spaced more input rest) := by
  induction hlength : input.length using Nat.strong_induction_on generalizing input with
  | _ n ih =>
    subst hlength
    constructor
    · intro opened rest h
      obtain ⟨x, left, hskip, h⟩ := skipValue_eq_ok_iff.1 h
      have hblank := (skipBlanks_eq_cons_iff.1 hskip).1
      have hlt := length_lt_of_skipBlanks hskip
      rcases h with ⟨b, hx, hfirst⟩ | ⟨-, mid, hscalar, hafter⟩
      · rw [Bracket.opened?_eq_some_iff.1 hx] at hskip hblank
        obtain ⟨y, mid, hskip', h⟩ := skipFirst_eq_ok_iff.1 hfirst
        have hlt' := length_lt_of_skipBlanks hskip'
        rcases h with ⟨rfl, hafter⟩ | ⟨-, after, hkey, hvalue⟩
        · obtain ⟨more, hcloses, hmore⟩ := (ih _ (by omega) mid rfl).2 _ _ hafter
          have hempty : Value [[b.opening], [b.closing]] :=
            @Value.bracketed b [] nofun nofun
          have hclose : Spaced ([b.closing] :: more) left rest :=
            (spaced_mark_iff (isBlank_closing b)).2 ⟨mid, hskip', hmore⟩
          exact ⟨_, more, hempty, hcloses, (spaced_mark_iff hblank).2 ⟨left, hskip, hclose⟩⟩
        · have hle := Bracket.length_skipKey_le hkey
          rw [List.length_cons] at hle
          obtain ⟨part, parts, more, hpart, hparts, hcloses, hmore⟩ :=
            exists_part hkey ((ih _ (by omega) after rfl).1 _ _ hvalue)
          have hfits : ∀ other ∈ part :: parts, other.Fits b :=
            List.forall_mem_cons.2 ⟨hpart, hparts⟩
          have hinside : Spaced
              (enclosed true b.closing ((part :: parts).map Part.words) ++ more) left rest := by
            obtain ⟨z, tail, others, hfirst, hz⟩ := hpart.exists_first
            rw [List.map_cons, enclosed_cons, if_pos rfl, List.nil_append, List.append_assoc]
            rw [← hskip', hfirst, List.cons_append] at hmore
            rw [hfirst, List.cons_append]
            exact (spaced_skipBlanks_iff hz.1).1 hmore
          exact ⟨_, more, .bracketed (fun part hpart => (hfits part hpart).lead)
            (fun part hpart => (hfits part hpart).value), hcloses,
            (spaced_mark_iff hblank).2 ⟨left, hskip, hinside⟩⟩
      · have hle := length_skipScalar_le hscalar
        obtain ⟨more, hcloses, hmore⟩ := (ih _ (by omega) mid rfl).2 _ _ hafter
        obtain ⟨tail, hword, rfl⟩ := exists_scalar hscalar
        exact ⟨_, more, .scalar hword, hcloses, (spaced_word_iff hblank).2 ⟨mid, hskip, hmore⟩⟩
    · intro opened rest h
      cases opened with
      | nil =>
        rw [skipAfter] at h
        cases h
        exact ⟨[], .nil, .nil _⟩
      | cons b opened =>
        obtain ⟨x, left, hskip, h⟩ := skipAfter_cons_eq_ok_iff.1 h
        have hblank := (skipBlanks_eq_cons_iff.1 hskip).1
        have hlt := length_lt_of_skipBlanks hskip
        rcases h with ⟨rfl, hafter⟩ | ⟨rfl, after, hkey, hvalue⟩
        · obtain ⟨more, hcloses, hmore⟩ := (ih _ (by omega) left rfl).2 _ _ hafter
          exact ⟨_, @Closes.cons b opened [] more nofun hcloses,
            (spaced_mark_iff hblank).2 ⟨left, hskip, hmore⟩⟩
        · have hle := Bracket.length_skipKey_le hkey
          obtain ⟨part, parts, more, hpart, hparts, hcloses, hmore⟩ :=
            exists_part hkey ((ih _ (by omega) after rfl).1 _ _ hvalue)
          have hfits : ∀ other ∈ part :: parts, other.Fits b :=
            List.forall_mem_cons.2 ⟨hpart, hparts⟩
          refine ⟨_, .cons hfits hcloses, ?_⟩
          rw [List.map_cons, enclosed_cons, if_neg (by decide), List.append_assoc,
            List.append_assoc]
          exact (spaced_mark_iff hblank).2 ⟨left, hskip, hmore⟩

/-- **What is passed over is a value**, if no bracket is open. -/
theorem exists_value (h : skipValue [] input = .ok rest) :
    ∃ words, Value words ∧ Spaced words input rest := by
  obtain ⟨words, more, hvalue, ⟨⟩, hspaced⟩ := (exists_value_closes input).1 _ _ h
  rw [List.append_nil] at hspaced
  exact ⟨words, hvalue, hspaced⟩

end Values

end Json

end Catalogue
