import Catalogue.Proofs.Literals
import Catalogue.Proofs.Validation

/-!
# Hosts and ports

A host and a port are written one behind the other, with a colon between them, and read together.
The host alone decides which IP address that is, and the port alone decides the port: a host is an
address of version 4 or one of version 6 in brackets (`SocketAddress.Literal`), and no other text
in its place is read (`SocketAddress.ofHostPort?_eq_some_iff`). What carries this is that nothing
but digits is written for a port, so the colon in front of it is the last one; and that the reader
takes a port only behind a colon and up to the end of the text, so this colon is the last one too.
-/

namespace Catalogue

namespace SocketAddress

open Numeral (DigitOf Stands NoDigit)
open Text (readChar)

/-- The address of a host. One of version 6 may have a zone. -/
inductive Ip where
  | v4 (octets : List Nat)
  | v6 (groups : List Nat) (zone : Nat)

/-- The address of a host with a port. -/
def Ip.at (port : Nat) : Ip → SocketAddress
  | .v4 octets => .v4 octets port
  | .v6 groups zone => .v6 groups zone port

/-- The port of an address. -/
def port : SocketAddress → Nat
  | .v4 _ port => port
  | .v6 _ _ port => port

/-- A zone behind a percent sign, or none. -/
inductive Zoned : List Char → Nat → Prop
  | none : Zoned [] 0
  | zone {digits : List Char} {zone : Nat} :
      Stands 10 digits zone → zone ≤ 0xFFFFFFFF → Zoned ('%' :: digits) zone

/-- **What the host of an address may be**, and the address that it alone denotes: four numbers with
dots, or groups with colons in brackets, with or without a zone. -/
inductive Literal : List Char → Ip → Prop
  | v4 {word : List Char} {octets : List Nat} : Dotted word octets → Literal word (.v4 octets)
  | v6 {word mark : List Char} {groups : List Nat} {zone : Nat} :
      Grouped word groups → Zoned mark zone →
        Literal ('[' :: (word ++ (mark ++ [']']))) (.v6 groups zone)

/-! ### What is read of an address -/

variable {text rest word digits : List Char} {zone n : Nat} {ip : Ip} {address : SocketAddress}

theorem readPort_eq_some_iff :
    readPort text = some (n, rest) ↔
      ∃ digits, Stands 10 digits n ∧ n ≤ 65535 ∧ NoDigit 10 rest ∧
        text = ':' :: (digits ++ rest) := by
  unfold readPort
  constructor
  · intro h
    obtain ⟨⟨⟨⟩, behind⟩, hcolon, hread⟩ := Option.bind_eq_some_iff.1 h
    obtain ⟨digits, hdigits, hrest, rfl, -, hsmall, -⟩ :=
      (readNumber_eq_some_iff (by decide)).1 hread
    exact ⟨digits, hdigits, hsmall, hrest, readChar_eq_some_iff.1 hcolon⟩
  · rintro ⟨digits, hdigits, hsmall, hrest, rfl⟩
    refine Option.bind_eq_some_iff.2 ⟨((), _), readChar_eq_some_iff.2 rfl, ?_⟩
    exact (readNumber_eq_some_iff (by decide)).2
      ⟨digits, hdigits, hrest, rfl, nofun, hsmall, nofun⟩

theorem readZone_of_zoned {mark : List Char} (h : Zoned mark zone) :
    readZone (mark ++ ']' :: rest) = (zone, ']' :: rest) := by
  cases h with
  | none => rfl
  | @zone digits _ hdigits hsmall =>
    have hread : readNumber 10 none true 0xFFFFFFFF (digits ++ ']' :: rest) =
        some (zone, ']' :: rest) :=
      (readNumber_eq_some_iff (by decide)).2
        ⟨digits, hdigits, noDigit_of_mem_marks (by decide), rfl, nofun, hsmall, nofun⟩
    unfold readZone
    simp [readChar, hread]

theorem exists_of_readZone (h : readZone text = (zone, rest)) :
    ∃ mark, Zoned mark zone ∧ text = mark ++ rest := by
  rcases Option.getD_eq_iff.1 h with hread | ⟨-, heq⟩
  · obtain ⟨⟨⟨⟩, behind⟩, hpercent, hread⟩ := Option.bind_eq_some_iff.1 hread
    obtain ⟨digits, hdigits, -, rfl, -, hsmall, -⟩ :=
      (readNumber_eq_some_iff (by decide)).1 hread
    exact ⟨_, .zone hdigits hsmall, readChar_eq_some_iff.1 hpercent⟩
  · cases heq
    exact ⟨[], .none, rfl⟩

theorem readV4_eq_some_iff :
    readV4 text = some (address, rest) ↔
      ∃ word octets port, Dotted word octets ∧ address = .v4 octets port ∧
        ∃ behind, readPort behind = some (port, rest) ∧ text = word ++ behind := by
  unfold readV4
  constructor
  · intro h
    obtain ⟨⟨octets, behind⟩, hoctets, h⟩ := Option.bind_eq_some_iff.1 h
    obtain ⟨⟨port, left⟩, hport, h⟩ := Option.bind_eq_some_iff.1 h
    cases h
    obtain ⟨word, hword, -, rfl⟩ := readOctets_eq_some_iff.1 hoctets
    exact ⟨word, octets, port, hword, rfl, behind, hport, rfl⟩
  · rintro ⟨word, octets, port, hword, rfl, behind, hport, rfl⟩
    obtain ⟨digits, -, -, -, rfl⟩ := readPort_eq_some_iff.1 hport
    refine Option.bind_eq_some_iff.2 ⟨(octets, ':' :: (digits ++ rest)), ?_, ?_⟩
    · exact readOctets_eq_some_iff.2 ⟨word, hword, noDigit_of_mem_marks (by decide), rfl⟩
    · exact Option.bind_eq_some_iff.2 ⟨(port, rest), hport, rfl⟩

/-- What a zone begins with, or the bracket behind none, may stand behind a row. -/
theorem Zoned.stops {mark : List Char} (h : Zoned mark zone) : Stops (mark ++ ']' :: rest) := by
  cases h with
  | none => exact .bracket rest
  | zone => exact .zone _

theorem readV6_eq_some_iff :
    readV6 text = some (address, rest) ↔
      ∃ word mark groups zone port, Grouped word groups ∧ Zoned mark zone ∧
        address = .v6 groups zone port ∧ ∃ behind, readPort behind = some (port, rest) ∧
          text = '[' :: (word ++ (mark ++ ']' :: behind)) := by
  unfold readV6
  constructor
  · intro h
    obtain ⟨⟨⟨⟩, inner⟩, hopen, h⟩ := Option.bind_eq_some_iff.1 h
    obtain ⟨⟨groups, behind⟩, hgroups, h⟩ := Option.bind_eq_some_iff.1 h
    rcases hzone : readZone behind with ⟨zone, left⟩
    dsimp only at h hgroups
    rw [hzone] at h
    obtain ⟨⟨⟨⟩, left'⟩, hclose, h⟩ := Option.bind_eq_some_iff.1 h
    obtain ⟨⟨port, left''⟩, hport, h⟩ := Option.bind_eq_some_iff.1 h
    cases h
    rw [readChar_eq_some_iff] at hopen hclose
    dsimp only at hclose
    subst hclose
    obtain ⟨mark, hmark, rfl⟩ := exists_of_readZone hzone
    obtain ⟨word, hword, rfl⟩ := exists_of_readV6Groups hgroups
    exact ⟨word, mark, groups, zone, port, hword, hmark, rfl, left', hport, hopen⟩
  · rintro ⟨word, mark, groups, zone, port, hword, hmark, rfl, behind, hport, rfl⟩
    refine Option.bind_eq_some_iff.2 ⟨((), _), readChar_eq_some_iff.2 rfl, ?_⟩
    refine Option.bind_eq_some_iff.2 ⟨_, readV6Groups_of_grouped hword hmark.stops, ?_⟩
    dsimp only
    rw [readZone_of_zoned hmark]
    refine Option.bind_eq_some_iff.2 ⟨((), behind), readChar_eq_some_iff.2 rfl, ?_⟩
    exact Option.bind_eq_some_iff.2 ⟨(port, rest), hport, rfl⟩

/-- No address of version 4 begins with a bracket. -/
theorem readV4_bracket : readV4 ('[' :: text) = none := by
  rw [Option.eq_none_iff_forall_ne_some]
  rintro ⟨address, rest⟩ h
  obtain ⟨_, octets, port, hword, -, behind, -, heq⟩ := readV4_eq_some_iff.1 h
  obtain @⟨a, b, c, d, -, -, -, -⟩ := hword
  obtain ⟨first, others, hcons⟩ := List.exists_cons_of_ne_nil (Numeral.stands_ofNat a).ne_nil
  obtain ⟨e, he⟩ := (Numeral.stands_ofNat a).exists_digit first (by simp [hcons])
  rw [writeOctets_four, hcons] at heq
  obtain ⟨rfl, -⟩ := List.cons_eq_cons.1 heq
  exact not_digitOf_of_mem_marks (by decide) e he

/-- **An address is read** just where a host and a port stand. -/
theorem read_eq_some_iff :
    (readV4 text).or (readV6 text) = some (address, rest) ↔
      ∃ word ip port, Literal word ip ∧ address = ip.at port ∧
        ∃ behind, readPort behind = some (port, rest) ∧ text = word ++ behind := by
  rw [Option.or_eq_some_iff]
  constructor
  · rintro (h | ⟨-, h⟩)
    · obtain ⟨word, octets, port, hword, rfl, hport⟩ := readV4_eq_some_iff.1 h
      exact ⟨word, .v4 octets, port, .v4 hword, rfl, hport⟩
    · obtain ⟨word, mark, groups, zone, port, hword, hmark, rfl, behind, hport, rfl⟩ :=
        readV6_eq_some_iff.1 h
      exact ⟨_, .v6 groups zone, port, .v6 hword hmark, rfl, behind, hport, by simp⟩
  · rintro ⟨_, _, port, ⟨hword⟩ | ⟨hword, hmark⟩, rfl, behind, hport, rfl⟩
    · exact Or.inl (readV4_eq_some_iff.2 ⟨_, _, port, hword, rfl, behind, hport, rfl⟩)
    · refine Or.inr ⟨readV4_bracket, readV6_eq_some_iff.2 ?_⟩
      exact ⟨_, _, _, _, port, hword, hmark, rfl, behind, hport, by simp⟩

theorem read?_eq_some_iff :
    read? text = some address ↔ (readV4 text).or (readV6 text) = some (address, []) := by
  unfold read?
  rcases (readV4 text).or (readV6 text) with _ | ⟨found, _ | ⟨c, rest⟩⟩
  · simp
  · simp
  · simp

/-! ### The last colon -/

theorem eq_nil_of_not_mem {c : Char} {tail back back' : List Char} (h : c ∉ back)
    (heq : c :: back = tail ++ c :: back') : tail = [] := by
  cases tail with
  | nil => rfl
  | cons d tail =>
    obtain ⟨-, rfl⟩ := List.cons_eq_cons.1 heq
    exact absurd (by simp) h

/-- A text is split in one way only at the last of a character. -/
theorem append_inj_of_not_mem {c : Char} {front front' back back' : List Char} (h : c ∉ back)
    (h' : c ∉ back') (heq : front ++ c :: back = front' ++ c :: back') :
    front = front' ∧ back = back' := by
  rcases List.append_eq_append_iff.1 heq with ⟨tail, rfl, hback⟩ | ⟨tail, rfl, hback⟩
  · have htail := eq_nil_of_not_mem h hback
    subst htail
    exact ⟨(List.append_nil front).symm, List.cons_injective hback⟩
  · have htail := eq_nil_of_not_mem h' hback
    subst htail
    exact ⟨List.append_nil front', (List.cons_injective hback).symm⟩

theorem Stands.not_mem_of_mem_marks {c : Char} (h : Stands 10 digits n) (hc : c ∈ marks) :
    c ∉ digits := by
  intro hmem
  obtain ⟨d, hd⟩ := h.exists_digit c hmem
  exact not_digitOf_of_mem_marks hc d hd

/-- **The address of a host and a port.** The host is a literal, and the port is the one given. -/
theorem ofHostPort?_eq_some_iff {host : String} (hport : n ≤ 65535) :
    ofHostPort? host n = some address ↔ ∃ ip, Literal host.toList ip ∧ address = ip.at n := by
  unfold ofHostPort?
  rw [read?_eq_some_iff, read_eq_some_iff]
  constructor
  · rintro ⟨word, ip, port, hword, rfl, _, hread, heq⟩
    obtain ⟨digits, hdigits, -, -, rfl⟩ := readPort_eq_some_iff.1 hread
    rw [List.append_nil] at heq
    obtain ⟨rfl, rfl⟩ := append_inj_of_not_mem
      (Stands.not_mem_of_mem_marks (Numeral.stands_ofNat n) (by decide))
      (Stands.not_mem_of_mem_marks hdigits (by decide)) heq
    have hvalue := hdigits.ofDigits_eq (by decide)
    rw [(Numeral.stands_ofNat n).ofDigits_eq (by decide)] at hvalue
    subst hvalue
    exact ⟨ip, hword, rfl⟩
  · rintro ⟨ip, hhost, rfl⟩
    refine ⟨host.toList, ip, n, hhost, rfl, _, readPort_eq_some_iff.2 ?_, rfl⟩
    exact ⟨_, Numeral.stands_ofNat n, hport, nofun, by simp⟩

/-! ### Texts that are no hosts -/

/-- **Texts that are no hosts**: with a colon outside the brackets, and so also with a port of their
own; an address of version 6 without brackets; with a space; or with a letter or any other sign in
front of which no bracket is opened, as in the name of a host. -/
inductive Stray (host : List Char) : Prop
  | colon {front back : List Char} : host = front ++ ':' :: back → '[' ∉ front ∨ ']' ∈ front →
      Stray host
  | port {word back : List Char} {ip : Ip} : Literal word ip → host = word ++ ':' :: back →
      Stray host
  | bare {groups : List Nat} : Grouped host groups → Stray host
  | space : ' ' ∈ host → Stray host
  | name {c : Char} : c ∈ host → c ≠ '.' → c.isDigit = false → host.head? ≠ some '[' → Stray host

/-- What stands between brackets: digits, and marks other than brackets. -/
def Inner (c : Char) : Prop := (∃ d, DigitOf 16 c d) ∨ c ∈ ['.', ':', '%']

variable {c : Char} {mark : List Char} {octets groups : List Nat} {mixed : Bool}

theorem not_inner (h : c ∈ ['[', ']', ' ']) : ¬ Inner c := by
  simp only [List.mem_cons, List.not_mem_nil, or_false] at h
  rintro (⟨d, hd⟩ | hmark)
  · have hrange := hd.range
    rcases h with rfl | rfl | rfl <;> revert hrange <;> decide
  · rcases h with rfl | rfl | rfl <;> revert hmark <;> decide

theorem Stands.inner {base : Nat} (h : Stands base digits n) : ∀ c ∈ digits, Inner c := by
  intro c hc
  obtain ⟨d, hd⟩ := h.exists_digit c hc
  exact Or.inl ⟨d, hd.hexadecimal⟩

theorem Dotted.digit_or_dot (h : Dotted word octets) : ∀ c ∈ word, c.isDigit = true ∨ c = '.' := by
  obtain @⟨i, j, k, l, -, -, -, -⟩ := h
  have hdigit : ∀ {n c}, c ∈ Numeral.ofNat n → c.isDigit = true :=
    Nat.isDigit_of_mem_toDigits (by decide) (by decide)
  intro c hc
  rw [writeOctets_four] at hc
  simp only [List.mem_append, List.mem_cons] at hc
  rcases hc with hc | hc | hc | hc | hc | hc | hc
  · exact Or.inl (hdigit hc)
  · exact Or.inr hc
  · exact Or.inl (hdigit hc)
  · exact Or.inr hc
  · exact Or.inl (hdigit hc)
  · exact Or.inr hc
  · exact Or.inl (hdigit hc)

theorem Dotted.inner (h : Dotted word octets) : ∀ c ∈ word, Inner c := by
  intro c hc
  rcases h.digit_or_dot c hc with hdigit | rfl
  · obtain ⟨d, hd⟩ := Numeral.exists_digitOf_of_isDigit hdigit
    exact Or.inl ⟨d, hd.hexadecimal⟩
  · exact Or.inr (by decide)

theorem Row.inner (h : Row mixed word groups) : ∀ c ∈ word, Inner c := by
  induction h with
  | last hgroup => exact Stands.inner hgroup.1
  | dotted _ hdotted => exact hdotted.inner
  | more hgroup _ ih =>
    intro c hc
    rcases List.mem_append.1 hc with hc | hc
    · exact Stands.inner hgroup.1 c hc
    · rcases List.mem_cons.1 hc with rfl | hc
      · exact Or.inr (by decide)
      · exact ih c hc

theorem Side.inner (h : Side mixed word groups) : ∀ c ∈ word, Inner c := by
  cases h with
  | none => simp
  | row hrow => exact hrow.inner

theorem Row.colon_mem (h : Row mixed word groups) (hlength : 2 < groups.length) : ':' ∈ word := by
  cases h with
  | last => simp at hlength
  | dotted => simp [groupsOfOctets] at hlength
  | more => simp

theorem Grouped.colon_mem (h : Grouped word groups) : ':' ∈ word := by
  cases h with
  | whole hrow height => exact hrow.colon_mem (by omega)
  | gap => simp

theorem Grouped.inner (h : Grouped word groups) : ∀ c ∈ word, Inner c := by
  cases h with
  | whole hrow => exact hrow.inner
  | gap hleft hright =>
    intro c hc
    rcases List.mem_append.1 hc with hc | hc
    · exact hleft.inner c hc
    · rcases List.mem_cons.1 hc with rfl | hc
      · exact Or.inr (by decide)
      · rcases List.mem_cons.1 hc with rfl | hc
        · exact Or.inr (by decide)
        · exact hright.inner c hc

theorem Zoned.inner (h : Zoned mark zone) : ∀ c ∈ mark, Inner c := by
  cases h with
  | none => simp
  | zone hdigits =>
    intro c hc
    rcases List.mem_cons.1 hc with rfl | hc
    · exact Or.inr (by decide)
    · exact Stands.inner hdigits c hc

/-- Colons of a host stand between its brackets. -/
theorem Literal.between {front back : List Char} (h : Literal (front ++ ':' :: back) ip) :
    '[' ∈ front ∧ ']' ∉ front := by
  generalize hhost : front ++ ':' :: back = host at h
  cases h with
  | v4 hword =>
    have hcolon : ':' ∈ host := by simp [← hhost]
    exact absurd (hword.digit_or_dot _ hcolon) (by decide)
  | @v6 word mark groups zone hword hmark =>
    cases front with
    | nil => cases hhost
    | cons c front =>
      obtain ⟨rfl, hinside⟩ := List.cons_eq_cons.1 hhost
      refine ⟨List.mem_cons_self, ?_⟩
      rw [List.mem_cons, not_or]
      refine ⟨by decide, fun hclose => ?_⟩
      -- the closing bracket is the last character, and `front` is in front of a colon
      have hlast : front ++ ':' :: back = (word ++ mark) ++ [']'] := by
        rw [List.append_assoc]
        exact hinside
      have hdrop := congrArg List.dropLast hlast
      rw [List.dropLast_append_of_ne_nil (by simp), List.dropLast_concat] at hdrop
      have hinner : ']' ∈ word ++ mark := by
        rw [← hdrop]
        exact List.mem_append_left _ hclose
      rcases List.mem_append.1 hinner with hin | hin
      · exact not_inner (by decide) (hword.inner _ hin)
      · exact not_inner (by decide) (hmark.inner _ hin)

theorem Literal.space_not_mem {host : List Char} (h : Literal host ip) : ' ' ∉ host := by
  intro hspace
  cases h with
  | v4 hword => exact absurd (hword.digit_or_dot _ hspace) (by decide)
  | v6 hword hmark =>
    simp only [List.mem_cons, List.mem_append, List.not_mem_nil, or_false] at hspace
    rcases hspace with heq | hin | hin | heq
    · cases heq
    · exact not_inner (by decide) (hword.inner _ hin)
    · exact not_inner (by decide) (hmark.inner _ hin)
    · cases heq

/-- **A host is none of those texts.** -/
theorem Literal.not_stray {host : List Char} (h : Literal host ip) : ¬ Stray host := by
  rintro (⟨rfl, hout⟩ | ⟨hword, rfl⟩ | hgroups | hspace | ⟨hc, hdot, hdigit, hhead⟩)
  · obtain ⟨hopen, hclose⟩ := h.between
    rcases hout with hout | hout
    · exact hout hopen
    · exact hclose hout
  · obtain ⟨hopen, hclose⟩ := h.between
    cases hword with
    | v4 hword => exact absurd (hword.digit_or_dot _ hopen) (by decide)
    | v6 => exact hclose (by simp)
  · obtain ⟨front, back, rfl⟩ := List.append_of_mem hgroups.colon_mem
    exact not_inner (by decide) (hgroups.inner _ (List.mem_append_left _ h.between.1))
  · exact h.space_not_mem hspace
  · cases h with
    | v4 hword =>
      rcases hword.digit_or_dot _ hc with hin | heq
      · rw [hin] at hdigit
        cases hdigit
      · exact hdot heq
    | v6 => exact hhead rfl

theorem Ip.at_injective (port : Nat) : Function.Injective (Ip.at port) := by
  rintro (octets | ⟨groups, zone⟩) (octets' | ⟨groups', zone'⟩) h
  · cases h
    rfl
  · cases h
  · cases h
  · cases h
    rfl

@[simp] theorem port_at (port : Nat) (ip : Ip) : (ip.at port).port = port := by
  cases ip <;> rfl

end SocketAddress

namespace Settings

open SocketAddress

theorem Violation.eq_badAddress {violation : Violation} (h : violation.key = "server.addr") :
    ∃ candidate, violation = .badAddress candidate := by
  cases violation with
  | badAddress candidate => exact ⟨candidate, rfl⟩
  | _ => exact absurd h (by decide)

/-- **The host cannot alter the port.** For all values with a port that is not zero:
* settings made of them have that port, and the IP address that the host alone denotes;
* the address is refused just if the host denotes none;
* and it denotes none if it has a colon outside brackets or a port of its own, if it is an address
  of version 6 without brackets, if it has a space, or if it is a name. -/
theorem host_cannot_alter_port (raw : Raw) (hport : raw.filled.port ≠ 0) :
    let host := raw.filled.host.toList
    (∀ settings, ofRaw raw = .ok settings →
      settings.address.port = raw.filled.port.toNat ∧
      ∃ ip, Literal host ip ∧ (∀ other, Literal host other → other = ip) ∧
        settings.address = ip.at raw.filled.port.toNat) ∧
    ((∃ violation, ofRaw raw = .error violation ∧ violation.key = "server.addr") ↔
      ¬ ∃ ip, Literal host ip) ∧
    (Stray host → ¬ ∃ ip, Literal host ip) := by
  intro host
  have hread : ∀ address, ofHostPort? raw.filled.host raw.filled.port.toNat = some address ↔
      ∃ ip, Literal host ip ∧ address = ip.at raw.filled.port.toNat := fun address =>
    ofHostPort?_eq_some_iff (Nat.le_of_lt_succ raw.filled.port.toNat_lt)
  refine ⟨fun settings hok => ?_, ⟨?_, fun hnone => ?_⟩, ?_⟩
  · have hgives := (ofRaw_eq_ok_iff.1 hok).2.address
    obtain ⟨ip, hip, haddress⟩ := (hread _).1 hgives
    refine ⟨by rw [haddress, port_at], ip, hip, fun other hother => ?_, haddress⟩
    have hsame := (hread _).2 ⟨other, hother, rfl⟩
    rw [hgives, haddress, Option.some.injEq] at hsame
    exact (Ip.at_injective _ hsame).symm
  · rintro ⟨violation, herror, hkey⟩ ⟨ip, hip⟩
    obtain ⟨candidate, rfl⟩ := Violation.eq_badAddress hkey
    have hviolates := List.find?_some (ofRaw_eq_error_iff.1 herror)
    rw [Filled.violates, (hread _).2 ⟨ip, hip, rfl⟩] at hviolates
    cases hviolates
  · have haddress : ofHostPort? raw.filled.host raw.filled.port.toNat = none := by
      rw [Option.eq_none_iff_forall_ne_some]
      intro address hsome
      obtain ⟨ip, hip, -⟩ := (hread address).1 hsome
      exact hnone ⟨ip, hip⟩
    refine ⟨.badAddress (hostPort raw.filled.host raw.filled.port), ?_, rfl⟩
    rw [ofRaw_eq, if_neg hport, haddress]
  · rintro hstray ⟨ip, hip⟩
    exact hip.not_stray hstray

/-- A host that brings a port of its own is refused, and one with a zone is not. -/
theorem host_cannot_alter_port_loopback :
    let raw : Raw := { host := some "[::1]:80", port := some 8443 }
    let zoned : Raw := { host := some "[::1%5]", port := some 8443 }
    raw.filled.port ≠ 0 ∧ zoned.filled.port ≠ 0 ∧
      (∃ violation, ofRaw raw = .error violation ∧ violation.key = "server.addr") ∧
      ∃ settings, ofRaw zoned = .ok settings ∧ settings.address.port = 8443 ∧
        settings.address = .v6 [0, 0, 0, 0, 0, 0, 0, 1] 5 8443 := by
  intro raw zoned
  have hraw : raw.filled.port ≠ 0 := by decide
  have hzoned : zoned.filled.port ≠ 0 := by decide
  have hok : ofRaw zoned = .ok
      { address := .v6 [0, 0, 0, 0, 0, 0, 0, 1] 5 8443, gracefulShutdown := 30,
        requestTimeout := some 10, level := .upTo .info, format := .compact, url := none,
        maxConnections := 8, capacity := 10000 } := by
    decide +kernel
  obtain ⟨-, hrefused, hstray⟩ := host_cannot_alter_port raw hraw
  obtain ⟨haccepted, -, -⟩ := host_cannot_alter_port zoned hzoned
  have hcolon : Stray raw.filled.host.toList :=
    .colon (by decide : raw.filled.host.toList = "[::1]".toList ++ ':' :: "80".toList)
      (Or.inr (by decide))
  exact ⟨hraw, hzoned, hrefused.2 (hstray hcolon), _, hok, (haccepted _ hok).1, rfl⟩

end Settings

end Catalogue
