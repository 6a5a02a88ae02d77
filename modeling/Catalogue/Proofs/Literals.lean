import Catalogue.Proofs.Digits
import Catalogue.Settings.Address

/-!
# Literals of addresses

What an IP address may be written as is laid down here without a reader: four numbers with dots
(`SocketAddress.Dotted`), rows of groups with colons (`SocketAddress.Row`), and the double colon
that stands for groups of zero (`SocketAddress.Grouped`). For each piece there is a lemma that the
reader of that piece takes it off the front of a text, and that it takes nothing else.

A row is read as far as it goes, and at each group an address of version 4 is tried first. That this
never leads astray is the matter of `SocketAddress.readGroups_of_row`: behind a row there is a
bracket, a percent sign or a double colon (`SocketAddress.Stops`), and no dot, so where a group
stands no address of version 4 can be read.
-/

namespace Catalogue.SocketAddress

open Numeral (DigitOf Stands NoDigit)
open Text (readChar)

variable {base n : Nat} {width : Option Nat} {padded : Bool} {greatest : Nat}
  {text rest word : List Char}

theorem readChar_eq_some_iff {c : Char} :
    readChar c text = some ((), rest) ↔ text = c :: rest := by
  cases text with
  | nil => simp [readChar]
  | cons d tail =>
    simp only [readChar]
    split_ifs with h
    · simp [h]
    · simp [Ne.symm h]

theorem readNumber_append (hbase : base ≤ 16) (hword : ∀ c ∈ word, ∃ d, DigitOf base c d)
    (hrest : NoDigit base rest) :
    readNumber base width padded greatest (word ++ rest) =
      if word = [] ∨ width.any (· < word.length) ∨
          greatest < Numeral.ofDigits base (word.filterMap (Numeral.digitIn? base)) then none
      else if !padded ∧ 1 < word.length ∧ word.head? = some '0' then none
      else some (Numeral.ofDigits base (word.filterMap (Numeral.digitIn? base)), rest) := by
  unfold readNumber
  rw [Numeral.takeWhile_of_digits hbase hword hrest]
  dsimp only
  rw [List.drop_left]

/-- **The numbers that are read**: all digits that stand in front, in the bounds that are asked for.
-/
theorem readNumber_eq_some_iff (hbase : base ≤ 16) :
    readNumber base width padded greatest text = some (n, rest) ↔
      ∃ word, Stands base word n ∧ NoDigit base rest ∧ text = word ++ rest ∧
        (∀ w, width = some w → word.length ≤ w) ∧ n ≤ greatest ∧
          (padded = false → word.length = 1 ∨ word.head? ≠ some '0') := by
  constructor
  · intro h
    obtain ⟨word, behind, rfl, hword, hbehind⟩ := Numeral.exists_digits base text
    rw [readNumber_append hbase hword hbehind] at h
    split_ifs at h with hbad hzero
    rw [not_or, not_or] at hbad
    obtain ⟨hne, hwidth, hgreatest⟩ := hbad
    obtain ⟨n', hstands⟩ := Numeral.exists_stands hne hword
    rw [hstands.ofDigits_eq hbase] at h hgreatest
    cases h
    refine ⟨word, hstands, hbehind, rfl, ?_, Nat.not_lt.1 hgreatest, ?_⟩
    · rintro w rfl
      simpa using hwidth
    · rintro rfl
      have hlength : word.length ≠ 0 := by simpa using hne
      by_contra hnot
      rw [not_or, not_not] at hnot
      exact hzero ⟨rfl, by omega, hnot.2⟩
  · rintro ⟨word, hstands, hrest, rfl, hwidth, hgreatest, hpadded⟩
    rw [readNumber_append hbase hstands.exists_digit hrest, hstands.ofDigits_eq hbase,
      if_neg, if_neg]
    · rintro ⟨hunpadded, hlength, hzero⟩
      rcases hpadded (by simpa using hunpadded) with hone | hne
      · omega
      · exact hne hzero
    · rintro (hnil | hwide | hlarge)
      · exact hstands.ne_nil hnil
      · cases width with
        | none => cases hwide
        | some w =>
          have := hwidth w rfl
          simp only [Option.any_some, decide_eq_true_eq] at hwide
          omega
      · omega

/-- **An address of version 4**: four numbers up to 255, written without needless zeros and with
dots between them. -/
inductive Dotted : List Char → List Nat → Prop
  | intro {a b c d : Nat} : a ≤ 255 → b ≤ 255 → c ≤ 255 → d ≤ 255 →
      Dotted (writeOctets [a, b, c, d]) [a, b, c, d]

theorem readOctet_eq_some_iff :
    readNumber 10 (some 3) false 255 text = some (n, rest) ↔
      n ≤ 255 ∧ NoDigit 10 rest ∧ text = Numeral.ofNat n ++ rest := by
  rw [readNumber_eq_some_iff (by decide)]
  constructor
  · rintro ⟨word, hstands, hrest, rfl, -, hsmall, hzero⟩
    rw [hstands.eq_ofNat (hzero rfl)]
    exact ⟨hsmall, hrest, rfl⟩
  · rintro ⟨hsmall, hrest, rfl⟩
    refine ⟨_, Numeral.stands_ofNat n, hrest, rfl, ?_, hsmall, fun _ => ?_⟩
    · rintro w ⟨⟩
      exact (Nat.length_toDigits_le_iff (by decide) (by decide)).2 (by omega)
    · exact Numeral.length_or_head?_ofNat n

theorem readDotOctet_eq_some_iff :
    readDotOctet text = some (n, rest) ↔
      n ≤ 255 ∧ NoDigit 10 rest ∧ text = '.' :: (Numeral.ofNat n ++ rest) := by
  unfold readDotOctet
  constructor
  · intro h
    obtain ⟨⟨⟨⟩, behind⟩, hdot, hread⟩ := Option.bind_eq_some_iff.1 h
    obtain ⟨hsmall, hrest, rfl⟩ := readOctet_eq_some_iff.1 hread
    exact ⟨hsmall, hrest, readChar_eq_some_iff.1 hdot⟩
  · rintro ⟨hsmall, hrest, rfl⟩
    exact Option.bind_eq_some_iff.2 ⟨((), _), readChar_eq_some_iff.2 rfl,
      readOctet_eq_some_iff.2 ⟨hsmall, hrest, rfl⟩⟩

theorem writeOctets_four (a b c d : Nat) :
    writeOctets [a, b, c, d] = Numeral.ofNat a ++ '.' :: (Numeral.ofNat b ++
      '.' :: (Numeral.ofNat c ++ '.' :: Numeral.ofNat d)) := by
  simp [writeOctets, List.intercalate]

/-- What stands between numbers and around them. -/
def marks : List Char := ['.', ':', '[', ']', '%']

theorem not_digitOf_of_mem_marks {c : Char} (h : c ∈ marks) (d : Nat) :
    ¬ DigitOf base c d := by
  intro hdigit
  have hrange := hdigit.range
  simp only [marks, List.mem_cons, List.not_mem_nil, or_false] at h
  rcases h with rfl | rfl | rfl | rfl | rfl <;> revert hrange <;> decide

theorem noDigit_of_mem_marks {c : Char} (h : c ∈ marks) : NoDigit base (c :: rest) := by
  rintro _ _ ⟨⟩ d
  exact not_digitOf_of_mem_marks h d

/-- **An address of version 4 is read** where no digit stands behind it, and nothing else is. -/
theorem readOctets_eq_some_iff {octets : List Nat} :
    readOctets text = some (octets, rest) ↔
      ∃ word, Dotted word octets ∧ NoDigit 10 rest ∧ text = word ++ rest := by
  unfold readOctets
  constructor
  · intro h
    obtain ⟨⟨a, behind⟩, ha, h⟩ := Option.bind_eq_some_iff.1 h
    obtain ⟨⟨b, behind⟩, hb, h⟩ := Option.bind_eq_some_iff.1 h
    obtain ⟨⟨c, behind⟩, hc, h⟩ := Option.bind_eq_some_iff.1 h
    obtain ⟨⟨d, behind⟩, hd, h⟩ := Option.bind_eq_some_iff.1 h
    cases h
    obtain ⟨hasmall, -, rfl⟩ := readOctet_eq_some_iff.1 ha
    obtain ⟨hbsmall, -, rfl⟩ := readDotOctet_eq_some_iff.1 hb
    obtain ⟨hcsmall, -, rfl⟩ := readDotOctet_eq_some_iff.1 hc
    obtain ⟨hdsmall, hrest, rfl⟩ := readDotOctet_eq_some_iff.1 hd
    refine ⟨_, ⟨hasmall, hbsmall, hcsmall, hdsmall⟩, hrest, ?_⟩
    rw [writeOctets_four]
    simp
  · rintro ⟨word, ⟨ha, hb, hc, hd⟩, hrest, rfl⟩
    have hdot : ∀ {text : List Char}, NoDigit 10 ('.' :: text) := noDigit_of_mem_marks (by decide)
    rw [writeOctets_four]
    refine Option.bind_eq_some_iff.2 ⟨(_, _), readOctet_eq_some_iff.2 ⟨ha, hdot, by simp; rfl⟩, ?_⟩
    refine Option.bind_eq_some_iff.2 ⟨(_, _), readDotOctet_eq_some_iff.2 ⟨hb, hdot, rfl⟩, ?_⟩
    refine Option.bind_eq_some_iff.2 ⟨(_, _), readDotOctet_eq_some_iff.2 ⟨hc, hdot, rfl⟩, ?_⟩
    exact Option.bind_eq_some_iff.2 ⟨(_, _), readDotOctet_eq_some_iff.2 ⟨hd, hrest, rfl⟩, rfl⟩

/-! ### Groups with colons -/

/-- A group has at most four digits, in either case and with needless zeros. -/
def Group (word : List Char) (g : Nat) : Prop := Stands 16 word g ∧ word.length ≤ 4

/-- **A row of groups** with colons between them. Where that is allowed, an address of version 4 may
stand for the last two. -/
inductive Row (mixed : Bool) : List Char → List Nat → Prop
  | last {word : List Char} {g : Nat} : Group word g → Row mixed word [g]
  | dotted {word : List Char} {octets : List Nat} :
      mixed = true → Dotted word octets → Row mixed word (groupsOfOctets octets)
  | more {word rest : List Char} {g : Nat} {groups : List Nat} :
      Group word g → Row mixed rest groups → Row mixed (word ++ ':' :: rest) (g :: groups)

/-- The groups on one side of a double colon, which may be none. -/
inductive Side (mixed : Bool) : List Char → List Nat → Prop
  | none : Side mixed [] []
  | row {word : List Char} {groups : List Nat} : Row mixed word groups → Side mixed word groups

/-- **The groups of an address of version 6**: eight of them, or fewer with a double colon in the
place of groups of zero, which are one at least. -/
inductive Grouped : List Char → List Nat → Prop
  | whole {word : List Char} {groups : List Nat} :
      Row true word groups → groups.length = 8 → Grouped word groups
  | gap {left right : List Char} {front back : List Nat} :
      Side false left front → Side true right back → front.length + back.length ≤ 7 →
        Grouped (left ++ ':' :: ':' :: right)
          (front ++ List.replicate (8 - front.length - back.length) 0 ++ back)

/-- What may stand behind a row: the end of the brackets, a zone, or a double colon. -/
inductive Stops : List Char → Prop
  | bracket (rest : List Char) : Stops (']' :: rest)
  | zone (rest : List Char) : Stops ('%' :: rest)
  | gap (rest : List Char) : Stops (':' :: ':' :: rest)

section Groups

variable {first mixed dotted : Bool} {room g : Nat} {groups octets : List Nat}

theorem Stops.noDigit (h : Stops text) : NoDigit base text := by
  cases h with
  | bracket | zone | gap => exact noDigit_of_mem_marks (by decide)

theorem readGroup_eq_some_iff :
    readNumber 16 (some 4) true 65535 text = some (g, rest) ↔
      ∃ word, Group word g ∧ NoDigit 16 rest ∧ text = word ++ rest := by
  rw [readNumber_eq_some_iff (by decide)]
  constructor
  · rintro ⟨word, hstands, hrest, rfl, hlength, -, -⟩
    exact ⟨word, ⟨hstands, hlength 4 rfl⟩, hrest, rfl⟩
  · rintro ⟨word, ⟨hstands, hlength⟩, hrest, rfl⟩
    refine ⟨word, hstands, hrest, rfl, ?_, ?_, nofun⟩
    · rintro w ⟨⟩
      exact hlength
    · have hlt : g < 16 ^ 4 :=
        hstands.lt.trans_le (Nat.pow_le_pow_right (by decide) hlength)
      omega

/-- The colon in front of a group that is not the first. -/
def lead (first : Bool) : List Char := if first then [] else [':']

theorem behindColon_eq_some_iff {α : Type} {reader : Text.Reader α} {value : α} :
    behindColon first reader text = some (value, rest) ↔
      ∃ behind, text = lead first ++ behind ∧ reader behind = some (value, rest) := by
  cases first with
  | true => simp [behindColon, lead]
  | false =>
    simp only [behindColon, lead, Bool.false_eq_true, if_false]
    constructor
    · intro h
      obtain ⟨⟨⟨⟩, behind⟩, hcolon, hread⟩ := Option.bind_eq_some_iff.1 h
      exact ⟨behind, readChar_eq_some_iff.1 hcolon, hread⟩
    · rintro ⟨behind, rfl, hread⟩
      exact Option.bind_eq_some_iff.2 ⟨((), behind), readChar_eq_some_iff.2 rfl, hread⟩

/-- No address of version 4 is read where the digits in front do not end at a dot. -/
theorem readOctets_eq_none (hword : ∀ c ∈ word, ∃ d, DigitOf 16 c d)
    (hrest : NoDigit 16 rest) (hdot : ∀ behind, rest ≠ '.' :: behind) :
    readOctets (word ++ rest) = none := by
  rw [Option.eq_none_iff_forall_ne_some]
  rintro ⟨octets, behind⟩ h
  obtain ⟨_, hdotted, -, heq⟩ := readOctets_eq_some_iff.1 h
  obtain @⟨a, b, c, d, -, -, -, -⟩ := hdotted
  rw [writeOctets_four, List.append_assoc] at heq
  have hfront : ∀ c ∈ Numeral.ofNat a, ∃ d, DigitOf 16 c d := by
    intro c hmem
    obtain ⟨d, hd⟩ := (Numeral.stands_ofNat a).exists_digit c hmem
    exact ⟨d, hd.hexadecimal⟩
  exact hdot _ (Numeral.append_inj_of_digits hword hfront hrest
    (noDigit_of_mem_marks (by decide)) heq).2

/-- What may stand behind a row does not go on with a number, also not behind a colon. -/
theorem Stops.behind {behind : List Char} (h : Stops text) (heq : text = lead first ++ behind) :
    NoDigit 16 behind ∧ ∀ tail, behind ≠ '.' :: tail := by
  cases first with
  | true =>
    subst heq
    refine ⟨h.noDigit, ?_⟩
    rintro tail rfl
    cases h
  | false =>
    cases h with
    | bracket | zone => cases heq
    | gap rest =>
      cases heq
      exact ⟨noDigit_of_mem_marks (by decide), nofun⟩

theorem readGroups_of_stops (h : Stops text) :
    readGroups first room text = (⟨[], false⟩, text) := by
  have hoctets : behindColon first readOctets text = none := by
    rw [Option.eq_none_iff_forall_ne_some]
    rintro ⟨octets, rest⟩ hread
    obtain ⟨behind, heq, hread⟩ := behindColon_eq_some_iff.1 hread
    obtain ⟨hdigit, hdot⟩ := h.behind heq
    rw [← List.nil_append behind, readOctets_eq_none (by simp) hdigit hdot] at hread
    cases hread
  have hgroup : behindColon first (readNumber 16 (some 4) true 65535) text = none := by
    rw [Option.eq_none_iff_forall_ne_some]
    rintro ⟨g, rest⟩ hread
    obtain ⟨behind, heq, hread⟩ := behindColon_eq_some_iff.1 hread
    obtain ⟨word, ⟨hstands, -⟩, -, rfl⟩ := readGroup_eq_some_iff.1 hread
    obtain ⟨c, tail, rfl⟩ := List.exists_cons_of_ne_nil hstands.ne_nil
    obtain ⟨d, hd⟩ := hstands.exists_digit c List.mem_cons_self
    exact (h.behind heq).1 c _ rfl d hd
  cases room with
  | zero => rfl
  | succ room => simp only [readGroups, hoctets, hgroup, ite_self]

theorem readGroups_of_group (h : Group word g) (hrest : NoDigit 16 rest)
    (hdot : ∀ behind, rest ≠ '.' :: behind) :
    readGroups first (room + 1) (lead first ++ (word ++ rest)) =
      (⟨g :: (readGroups false room rest).1.groups, (readGroups false room rest).1.dotted⟩,
        (readGroups false room rest).2) := by
  have hoctets : behindColon first readOctets (lead first ++ (word ++ rest)) = none := by
    rw [Option.eq_none_iff_forall_ne_some]
    rintro ⟨octets, behind⟩ hread
    obtain ⟨_, heq, hread⟩ := behindColon_eq_some_iff.1 hread
    rw [← List.append_cancel_left heq, readOctets_eq_none h.1.exists_digit hrest hdot] at hread
    cases hread
  have hgroup : behindColon first (readNumber 16 (some 4) true 65535)
      (lead first ++ (word ++ rest)) = some (g, rest) :=
    behindColon_eq_some_iff.2 ⟨_, rfl, readGroup_eq_some_iff.2 ⟨word, h, hrest, rfl⟩⟩
  simp only [readGroups, hoctets, hgroup, ite_self]

/-- **A row is read to its end** if there is room for it. -/
theorem readGroups_of_row (first : Bool) (h : Row mixed word groups) (hrest : Stops rest)
    (hroom : groups.length ≤ room) :
    ∃ dotted, (dotted = true → mixed = true) ∧
      readGroups first room (lead first ++ (word ++ rest)) = (⟨groups, dotted⟩, rest) := by
  induction h generalizing first room with
  | @last word g hgroup =>
    obtain ⟨room, rfl⟩ := Nat.exists_eq_add_of_le' hroom
    refine ⟨false, nofun, ?_⟩
    rw [List.length_singleton, readGroups_of_group hgroup hrest.noDigit ?_,
      readGroups_of_stops hrest]
    cases hrest with
    | bracket | zone | gap => simp
  | @dotted word octets hmixed hdotted =>
    obtain ⟨room, rfl⟩ := Nat.exists_eq_add_of_le' hroom
    refine ⟨true, fun _ => hmixed, ?_⟩
    have hoctets : behindColon first readOctets (lead first ++ (word ++ rest)) =
        some (octets, rest) :=
      behindColon_eq_some_iff.2
        ⟨_, rfl, readOctets_eq_some_iff.2 ⟨word, hdotted, hrest.noDigit, rfl⟩⟩
    have hlength : room + (groupsOfOctets octets).length = room + 1 + 1 := rfl
    rw [hlength]
    simp only [readGroups, hoctets, Nat.succ_pos, if_true]
  | @more word tail g groups hgroup _ ih =>
    obtain ⟨room, rfl⟩ := Nat.exists_eq_add_of_le' hroom
    obtain ⟨dotted, hdotted, hmore⟩ := ih false (Nat.le_add_left groups.length room)
    refine ⟨dotted, hdotted, ?_⟩
    have hcolon : (word ++ ':' :: tail) ++ rest = word ++ (lead false ++ (tail ++ rest)) := by
      simp [lead]
    have hlength : room + (g :: groups).length = room + groups.length + 1 := by
      rw [List.length_cons, Nat.add_assoc]
    have hbehind : NoDigit 16 (lead false ++ (tail ++ rest)) := noDigit_of_mem_marks (by decide)
    rw [hcolon, hlength, readGroups_of_group hgroup hbehind (by simp [lead]), hmore]

/-- **Nothing but a row is read.** -/
theorem exists_of_readGroups (h : readGroups first room text = (⟨groups, dotted⟩, rest)) :
    groups.length ≤ room ∧ ((groups = [] ∧ dotted = false ∧ rest = text) ∨
      ∃ word, Row dotted word groups ∧ text = lead first ++ (word ++ rest)) := by
  induction room generalizing first text groups with
  | zero =>
    cases h
    exact ⟨Nat.le_refl 0, Or.inl ⟨rfl, rfl, rfl⟩⟩
  | succ room ih =>
    unfold readGroups at h
    dsimp only at h
    split at h
    · rename_i octets behind hoctets
      cases h
      split_ifs at hoctets with hroom
      obtain ⟨_, rfl, hread⟩ := behindColon_eq_some_iff.1 hoctets
      obtain ⟨word, hdotted, -, rfl⟩ := readOctets_eq_some_iff.1 hread
      exact ⟨Nat.succ_le_succ hroom, Or.inr ⟨word, .dotted rfl hdotted, rfl⟩⟩
    · split at h
      · cases h
        exact ⟨Nat.zero_le _, Or.inl ⟨rfl, rfl, rfl⟩⟩
      · rename_i g behind hgroup
        obtain ⟨_, rfl, hread⟩ := behindColon_eq_some_iff.1 hgroup
        obtain ⟨word, hword, -, rfl⟩ := readGroup_eq_some_iff.1 hread
        rcases hmore : readGroups false room behind with ⟨⟨more, moreDotted⟩, left⟩
        rw [hmore] at h
        cases h
        obtain ⟨hlength, ⟨rfl, rfl, rfl⟩ | ⟨tail, hrow, rfl⟩⟩ := ih hmore
        · exact ⟨Nat.succ_le_succ hlength, Or.inr ⟨word, .last hword, rfl⟩⟩
        · refine ⟨Nat.succ_le_succ hlength, Or.inr ⟨_, .more hword hrow, ?_⟩⟩
          simp [lead]

theorem Row.allowMixed (h : Row mixed word groups) : Row true word groups := by
  induction h with
  | last hgroup => exact .last hgroup
  | dotted _ hdotted => exact .dotted rfl hdotted
  | more hgroup _ ih => exact .more hgroup ih

theorem Side.allowMixed (h : Side mixed word groups) : Side true word groups := by
  cases h with
  | none => exact .none
  | row hrow => exact .row hrow.allowMixed

theorem readGroups_of_side (room : Nat) (h : Side mixed word groups) (hrest : Stops rest)
    (hroom : groups.length ≤ room) :
    ∃ dotted, (dotted = true → mixed = true) ∧
      readGroups true room (word ++ rest) = (⟨groups, dotted⟩, rest) := by
  cases h with
  | none => exact ⟨false, nofun, readGroups_of_stops hrest⟩
  | row hrow => exact readGroups_of_row true hrow hrest hroom

theorem exists_side_of_readGroups (h : readGroups true room text = (⟨groups, dotted⟩, rest)) :
    groups.length ≤ room ∧ ∃ word, Side dotted word groups ∧ text = word ++ rest := by
  obtain ⟨hlength, ⟨rfl, rfl, rfl⟩ | ⟨word, hrow, rfl⟩⟩ := exists_of_readGroups h
  · exact ⟨hlength, [], .none, rfl⟩
  · exact ⟨hlength, word, .row hrow, rfl⟩

/-- **The groups of an address of version 6 are read** in front of what may stand behind them. -/
theorem readV6Groups_of_grouped (h : Grouped word groups) (hrest : Stops rest) :
    readV6Groups (word ++ rest) = some (groups, rest) := by
  unfold readV6Groups
  cases h with
  | whole hrow height =>
    obtain ⟨dotted, -, hread⟩ := readGroups_of_row true hrow hrest height.le
    change readGroups true 8 (word ++ rest) = _ at hread
    simp only [hread, height, if_true]
  | @gap left right front back hleft hright hlength =>
    have hsplit : (left ++ ':' :: ':' :: right) ++ rest =
        left ++ (':' :: ':' :: (right ++ rest)) := by
      simp
    obtain ⟨dotted, hdotted, hhead⟩ := readGroups_of_side 8 hleft (.gap (right ++ rest))
      (by omega)
    have hplain : dotted = false := by
      simpa using hdotted
    subst hplain
    obtain ⟨dotted, -, htail⟩ := readGroups_of_side (7 - front.length) hright hrest (by omega)
    have hfew : front.length ≠ 8 := by omega
    rw [hsplit, hhead]
    simp only [hfew, if_false, Bool.false_eq_true]
    simp [readChar, htail]

/-- **Nothing else is read.** -/
theorem exists_of_readV6Groups (h : readV6Groups text = some (groups, rest)) :
    ∃ word, Grouped word groups ∧ text = word ++ rest := by
  unfold readV6Groups at h
  rcases hhead : readGroups true 8 text with ⟨⟨front, dotted⟩, behind⟩
  obtain ⟨hroom, left, hleft, rfl⟩ := exists_side_of_readGroups hhead
  rw [hhead] at h
  dsimp only at h
  split_ifs at h with height hdotted
  · cases h
    cases hleft with
    | none => cases height
    | row hrow => exact ⟨left, .whole hrow.allowMixed height, rfl⟩
  · have hplain : dotted = false := by simpa using hdotted
    subst hplain
    obtain ⟨⟨⟨⟩, inner⟩, hfirst, h⟩ := Option.bind_eq_some_iff.1 h
    obtain ⟨⟨⟨⟩, inner'⟩, hsecond, h⟩ := Option.bind_eq_some_iff.1 h
    rcases htail : readGroups true (7 - front.length) inner' with ⟨⟨back, dotted⟩, behind'⟩
    obtain ⟨hlength, right, hright, rfl⟩ := exists_side_of_readGroups htail
    dsimp only at h hsecond
    rw [htail] at h
    cases h
    rw [readChar_eq_some_iff] at hfirst hsecond
    have hfew : front.length + back.length ≤ 7 := by omega
    refine ⟨_, .gap hleft hright.allowMixed hfew, ?_⟩
    rw [hfirst, hsecond]
    simp

end Groups

end Catalogue.SocketAddress
