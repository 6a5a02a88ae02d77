import Catalogue.Json.Member
import Catalogue.Proofs.Integers
import Catalogue.Proofs.Values

/-!
# The members of an object

An object is a sequence of members, each a key and a value (`Json.SpellsObject`). Here the readers
of the pieces of an object are put in terms of words: what stands up to the next key, a colon, a string
that is kept, and a value that is passed over. A value that is read as a string or as an integer is
passed over just as far, and is a single word (`Json.Value.eq_singleton`).
-/

namespace Catalogue

namespace Json

/-- A member of an object: its key, a spelling of it, and the words of a value. -/
structure Member where
  key : String
  word : Input
  value : List Input
  denotes : Denotes word key.toList
  wellFormed : Value value

/-- The words of a member. -/
def Member.words (member : Member) : List Input :=
  quoted member.word :: [Byte.colon] :: member.value

/-- Whether a text is an object of the members, with any blanks around its words. -/
def SpellsObject (members : List Member) (text : Input) : Prop :=
  ∃ rest, Spaced ([Byte.openBrace] :: enclosed true Byte.closeBrace (members.map Member.words))
    text rest ∧ Blank rest

/-- Whether a text is an object of the members, in any order. -/
def ObjectOf (members : List Member) (text : Input) : Prop :=
  ∃ order : List Member, order.Perm members ∧ SpellsObject order text

theorem ObjectOf.perm {members others : List Member} {text : Input} (h : ObjectOf members text)
    (hperm : members.Perm others) : ObjectOf others text := by
  obtain ⟨order, horder, hspells⟩ := h
  exact ⟨order, horder.trans hperm, hspells⟩

/-- What is written between quotes denotes what it was written for. -/
theorem denotes_between (text : String) : Denotes (between text) text.toList := by
  obtain ⟨word, hdenotes, heq⟩ := readText_eq_ok_iff.1 (readText_between text [])
  rwa [List.append_cancel_right heq]

/-- A member whose key is written with the fewest escapes. -/
def Member.written (key : String) (value : List Input) (h : Value value) : Member :=
  ⟨key, between key, value, denotes_between key, h⟩

/-- Words with the same blanks in front of each. -/
theorem spaced_flatMap {blanks : Input} (h : Blank blanks) (words : List Input) :
    Spaced words (words.flatMap fun word => blanks ++ word) [] := by
  induction words with
  | nil => exact .nil []
  | cons word words ih =>
    rw [List.flatMap_cons, List.append_assoc]
    exact .cons h ih

/-- The members one after another, with the same blanks in front of every word, spell an object. -/
theorem spellsObject_flatMap {blanks : Input} (h : Blank blanks) (members : List Member) :
    SpellsObject members
      (([Byte.openBrace] :: enclosed true Byte.closeBrace (members.map Member.words)).flatMap
        fun word => blanks ++ word) :=
  ⟨[], spaced_flatMap h _, nofun⟩

section Readers

variable {members : List Member} {member : Member} {words : List Input} {token : Token}
  {key s : String} {word input mid left rest : Input} {first : Bool} {n : Int64}

theorem leading_singleton_iff_spaced :
    Leading [token] input rest ↔ ∃ word, token.Word word ∧ Spaced [word] input rest := by
  rw [leading_singleton_iff]
  constructor
  · rintro ⟨blanks, word, hblank, hword, rfl⟩
    exact ⟨word, hword, .cons hblank (.nil rest)⟩
  · rintro ⟨word, hword, hspaced⟩
    obtain ⟨blanks, _, hblank, rfl, ⟨⟩⟩ := spaced_cons_iff.1 hspaced
    exact ⟨blanks, word, hblank, hword, rfl⟩

theorem leading_text_iff_spaced :
    Leading [.text s] input rest ↔
      ∃ word, Denotes word s.toList ∧ Spaced [quoted word] input rest := by
  rw [leading_singleton_iff_spaced]
  constructor
  · rintro ⟨_, ⟨⟩ | hdenotes, hspaced⟩
    exact ⟨_, hdenotes, hspaced⟩
  · rintro ⟨word, hdenotes, hspaced⟩
    exact ⟨_, .text hdenotes, hspaced⟩

theorem readTextValue_eq_ok_iff_spaced :
    readTextValue input = .ok (s, rest) ↔
      ∃ word, Denotes word s.toList ∧ Spaced [quoted word] input rest := by
  rw [readTextValue_eq_ok_iff, leading_text_iff_spaced]

/-- A key that is read up to, behind the comma if it is not that of the first member. -/
theorem nextMember_eq_key_iff_spaced :
    nextMember first input = .ok (.key key rest) ↔ ∃ word, Denotes word key.toList ∧
      Spaced ((if first then [] else [[Byte.comma]]) ++ [quoted word]) input rest := by
  rw [nextMember_eq_key_iff, leading_separator_iff]
  cases first with
  | true => exact leading_text_iff_spaced
  | false =>
    have hcomma : ∀ word, Spaced ([Byte.comma] :: [quoted word]) input rest ↔
        ∃ mid, skipBlanks input = Byte.comma :: mid ∧ Spaced [quoted word] mid rest :=
      fun word => spaced_mark_iff (by decide)
    simp only [Bool.false_eq_true, if_false, List.singleton_append, leading_text_iff_spaced, hcomma]
    constructor
    · rintro ⟨mid, hskip, word, hdenotes, hspaced⟩
      exact ⟨word, hdenotes, mid, hskip, hspaced⟩
    · rintro ⟨word, hdenotes, mid, hskip, hspaced⟩
      exact ⟨mid, hskip, word, hdenotes, hspaced⟩

theorem nextMember_eq_close_iff_spaced :
    nextMember first input = .ok (.close rest) ↔ Spaced [[Byte.closeBrace]] input rest := by
  rw [nextMember_eq_close_iff, leading_mark_iff (by decide), spaced_mark_iff (by decide)]
  constructor
  · intro hskip
    exact ⟨rest, hskip, .nil rest⟩
  · rintro ⟨_, hskip, ⟨⟩⟩
    exact hskip

theorem readColon_eq_ok_iff_spaced :
    readColon input = .ok rest ↔ Spaced [[Byte.colon]] input rest := by
  rw [readColon_eq_ok_iff, leading_mark_iff (by decide), spaced_mark_iff (by decide)]
  constructor
  · intro hskip
    exact ⟨rest, hskip, .nil rest⟩
  · rintro ⟨_, hskip, ⟨⟩⟩
    exact hskip

theorem skipAfter_nil (input : Input) : skipAfter [] input = .ok input := by
  rw [skipAfter]

/-- A value that no bracket is open around is passed over. -/
theorem skipValue_eq_ok (hvalue : Value words) (hspaced : Spaced words input rest)
    (hends : Ends rest) : skipValue [] input = .ok rest :=
  hvalue.passed [] input rest rest hspaced hends (skipAfter_nil rest)

/-- So is a string, whatever follows. -/
theorem skipValue_quoted (hword : Quotable word) (hspaced : Spaced [quoted word] input rest) :
    skipValue [] input = .ok rest := by
  obtain ⟨_, hskip, ⟨⟩⟩ := (spaced_word_iff (by decide)).1 hspaced
  have htext : skipText (word ++ [Byte.quote] ++ rest) = .ok rest :=
    skipText_eq_ok_iff.2 ⟨word, hword, by simp⟩
  exact skipValue_eq_ok_iff.2 ⟨_, _, hskip, .inr ⟨rfl, rest, htext, skipAfter_nil rest⟩⟩

theorem Integer.scalar (h : Integer word n) : Scalar word := by
  have hunsigned : ∀ {digits}, Whole digits → Unsigned digits := by
    intro digits hdigits
    have hnumber := Unsigned.intro hdigits .none .none
    rwa [List.append_nil, List.append_nil] at hnumber
  cases h with
  | unsigned hdigits _ => exact .number (hunsigned hdigits)
  | negative hdigits _ _ => exact .negative (hunsigned hdigits)

/-- A value that is where a single word is, is the word. -/
theorem Value.eq_singleton (hvalue : Value words) (hword : Scalar word)
    (hspaced : Spaced words input rest) (hsingle : Spaced [word] input rest) : words = [word] := by
  obtain ⟨x, tail, rfl, hx, hopened, -⟩ := hword.exists_first
  obtain ⟨_, hskip, ⟨⟩⟩ := (spaced_word_iff hx.1).1 hsingle
  cases hvalue with
  | scalar hscalar =>
    obtain ⟨y, other, rfl, hy, -⟩ := hscalar.exists_first
    obtain ⟨_, hskip', ⟨⟩⟩ := (spaced_word_iff hy.1).1 hspaced
    obtain ⟨rfl, htail⟩ := List.cons.inj (hskip'.symm.trans hskip)
    rw [List.append_cancel_right htail]
  | @bracketed b parts _ _ =>
    obtain ⟨mid, hskip', -⟩ := (spaced_mark_iff (isBlank_opening b)).1 hspaced
    obtain ⟨rfl, -⟩ := List.cons.inj (hskip'.symm.trans hskip)
    rw [Bracket.opened?_eq_some_iff.2 rfl] at hopened
    cases hopened

end Readers

end Json

end Catalogue
