import Catalogue.Settings.Basic
import Mathlib.Data.List.Basic
import Mathlib.Data.List.TakeWhile
import Mathlib.Tactic.Common

/-!
# Which values make settings

The values of sources are checked with the defaults filled in (`Settings.Raw.filled`). There are six
rules in a fixed order (`Settings.Filled.rules`), and the one that is reported is the first that is
violated (`Settings.ofRaw_cases`). Values that obey all of them (`Settings.Filled.Valid`) make
settings that say what the values say (`Settings.Filled.Gives`). Only two values are changed on the
way: a timeout of zero is none, and a URL is stripped of the blanks around it, which leaves what is
between them (`Text.trimChars_eq_iff`).
-/

namespace Catalogue

/-! ### Blanks around a text -/

namespace Text

/-- **What is left of a text without the blanks around it**: it stands between blanks, and it begins
and ends with a character that is none. -/
structure Between (text core : List Char) : Prop where
  around : ∃ front back, text = front ++ core ++ back ∧ (∀ c ∈ front, isBlank c = true) ∧
    ∀ c ∈ back, isBlank c = true
  first : ∃ c rest, core = c :: rest ∧ isBlank c = false
  last : ∃ rest c, core = rest ++ [c] ∧ isBlank c = false

variable {text core : List Char}

theorem Between.ne_nil (h : Between text core) : core ≠ [] := by
  obtain ⟨c, rest, rfl, -⟩ := h.first
  simp

/-- What is left behind the blanks in front begins with a character that is none. -/
theorem dropWhile_eq_cons_iff {c : Char} {rest : List Char} :
    text.dropWhile isBlank = c :: rest ↔
      isBlank c = false ∧ ∃ front, text = front ++ c :: rest ∧ ∀ d ∈ front, isBlank d = true := by
  induction text with
  | nil => simp
  | cons d tail ih =>
    by_cases hd : isBlank d = true
    · rw [List.dropWhile_cons_of_pos hd, ih]
      refine and_congr_right fun hc => ⟨?_, ?_⟩
      · rintro ⟨front, rfl, hfront⟩
        exact ⟨d :: front, rfl, List.forall_mem_cons.2 ⟨hd, hfront⟩⟩
      · rintro ⟨front, heq, hfront⟩
        cases front with
        | nil =>
          obtain ⟨rfl, -⟩ := List.cons_eq_cons.1 heq
          rw [hd] at hc
          cases hc
        | cons first front =>
          obtain ⟨-, htail⟩ := List.cons_eq_cons.1 heq
          exact ⟨front, htail, (List.forall_mem_cons.1 hfront).2⟩
    · rw [List.dropWhile_cons_of_neg hd]
      constructor
      · intro h
        obtain ⟨rfl, rfl⟩ := List.cons_eq_cons.1 h
        exact ⟨by simpa using hd, [], rfl, by simp⟩
      · rintro ⟨-, front, heq, hfront⟩
        cases front with
        | nil => exact heq
        | cons first front =>
          obtain ⟨rfl, -⟩ := List.cons_eq_cons.1 heq
          exact absurd (hfront d List.mem_cons_self) hd

theorem trimChars_eq_nil_iff : trimChars text = [] ↔ ∀ c ∈ text, isBlank c = true := by
  unfold trimChars
  rw [List.reverse_eq_nil_iff, List.dropWhile_eq_nil_iff]
  constructor
  · intro h
    cases hrest : text.dropWhile isBlank with
    | nil => exact List.dropWhile_eq_nil_iff.1 hrest
    | cons c rest =>
      have hblank := h c (by simp [hrest])
      rw [(dropWhile_eq_cons_iff.1 hrest).1] at hblank
      cases hblank
  · intro h
    rw [List.dropWhile_eq_nil_iff.2 h]
    exact nofun

theorem trimChars_eq_iff (hne : core ≠ []) : trimChars text = core ↔ Between text core := by
  unfold trimChars
  rw [List.reverse_eq_iff]
  constructor
  · intro h
    obtain ⟨inner, d, rfl⟩ := (List.eq_nil_or_concat' core).resolve_left hne
    rw [List.reverse_concat] at h
    obtain ⟨hd, back, hback, hblanks⟩ := dropWhile_eq_cons_iff.1 h
    have hdrop : text.dropWhile isBlank = inner ++ [d] ++ back.reverse := by
      rw [List.reverse_eq_iff] at hback
      simp [hback]
    obtain ⟨c, tail, hcons⟩ := List.exists_cons_of_ne_nil hne
    rw [hcons, List.cons_append] at hdrop
    obtain ⟨hc, front, hfront, hblanks'⟩ := dropWhile_eq_cons_iff.1 hdrop
    refine ⟨⟨front, back.reverse, ?_, hblanks', by simpa using hblanks⟩, ⟨c, tail, hcons, hc⟩,
      inner, d, rfl, hd⟩
    rw [hfront, hcons, List.append_assoc, List.cons_append]
  · rintro ⟨⟨front, back, rfl, hfront, hback⟩, ⟨c, tail, hcons, hc⟩, inner, d, rfl, hd⟩
    have hdrop : (front ++ (inner ++ [d]) ++ back).dropWhile isBlank = inner ++ [d] ++ back := by
      rw [hcons, List.cons_append]
      exact dropWhile_eq_cons_iff.2 ⟨hc, front, by simp, hfront⟩
    rw [hdrop, List.reverse_append, List.reverse_concat]
    exact dropWhile_eq_cons_iff.2 ⟨hd, back.reverse, rfl, by simpa using hback⟩

end Text

/-! ### The rules -/

namespace Settings

/-- The values of sources, with defaults for those that were left out. -/
structure Filled where
  host : String
  port : UInt16
  gracefulShutdown : UInt64
  requestTimeout : UInt64
  level : String
  json : Bool
  url : Option String
  maxConnections : UInt32
  capacity : UInt64

/-- Fills in the defaults. -/
def Raw.filled (raw : Raw) : Filled :=
  { host := raw.host.getD "127.0.0.1"
    port := raw.port.getD 8080
    gracefulShutdown := raw.gracefulShutdown.getD 30
    requestTimeout := raw.requestTimeout.getD 10
    level := raw.level.getD "info"
    json := raw.json.getD false
    url := raw.url
    maxConnections := raw.maxConnections.getD 8
    capacity := raw.capacity.getD 10000 }

namespace Filled

/-- The rules in the order in which they are reported, each as the violation of it. -/
def rules (values : Filled) : List Violation :=
  [.zeroPort, .badAddress (hostPort values.host values.port), .zeroGracefulShutdown, .badLevel,
    .zeroMaxConnections, .zeroCapacity]

/-- Whether the values violate a rule. -/
def violates (values : Filled) : Violation → Bool
  | .zeroPort => values.port = 0
  | .badAddress _ => (SocketAddress.ofHostPort? values.host values.port.toNat).isNone
  | .zeroGracefulShutdown => values.gracefulShutdown = 0
  | .badLevel => (Verbosity.read? values.level).isNone
  | .zeroMaxConnections => values.maxConnections = 0
  | .zeroCapacity => values.capacity = 0

/-- Whether the values obey all rules. -/
structure Valid (values : Filled) : Prop where
  port : values.port ≠ 0
  address : ∃ address, SocketAddress.ofHostPort? values.host values.port.toNat = some address
  gracefulShutdown : values.gracefulShutdown ≠ 0
  level : ∃ level, Verbosity.read? values.level = some level
  maxConnections : values.maxConnections ≠ 0
  capacity : values.capacity ≠ 0

/-- Whether settings say what the values say: each is the value itself or what it was read as. A
timeout of zero is none, and so is a URL of blanks; any other URL is the text between the blanks. -/
structure Gives (values : Filled) (settings : Settings) : Prop where
  address : SocketAddress.ofHostPort? values.host values.port.toNat = some settings.address
  gracefulShutdown : settings.gracefulShutdown = values.gracefulShutdown
  requestTimeout : ∀ seconds, settings.requestTimeout = some seconds ↔
    seconds = values.requestTimeout ∧ seconds ≠ 0
  level : Verbosity.read? values.level = some settings.level
  format : settings.format = if values.json then .json else .compact
  noUrl : settings.url = none ↔
    ∀ url, values.url = some url → ∀ c ∈ url.toList, Text.isBlank c = true
  url : ∀ text, settings.url = some text ↔
    ∃ url, values.url = some url ∧ Text.Between url.toList text.toList
  maxConnections : settings.maxConnections = values.maxConnections
  capacity : settings.capacity = values.capacity

end Filled

theorem trimmedUrl?_eq_none_iff {url : String} :
    trimmedUrl? url = none ↔ ∀ c ∈ url.toList, Text.isBlank c = true := by
  rw [← Text.trimChars_eq_nil_iff]
  unfold trimmedUrl? Text.trim
  simp

theorem trimmedUrl?_eq_some_iff {url text : String} :
    trimmedUrl? url = some text ↔ Text.Between url.toList text.toList := by
  have hbetween : Text.Between url.toList text.toList ↔
      Text.trimChars url.toList = text.toList ∧ text.toList ≠ [] := by
    constructor
    · exact fun h => ⟨(Text.trimChars_eq_iff h.ne_nil).2 h, h.ne_nil⟩
    · exact fun h => (Text.trimChars_eq_iff h.2).1 h.1
  rw [hbetween]
  unfold trimmedUrl? Text.trim
  dsimp only
  split_ifs with hempty
  · refine iff_of_false nofun ?_
    rintro ⟨htrim, hne⟩
    rw [htrim] at hempty
    exact hne (by simpa using hempty)
  · rw [Option.some.injEq]
    constructor
    · rintro rfl
      exact ⟨by simp, by simpa using hempty⟩
    · rintro ⟨htrim, -⟩
      rw [htrim, String.ofList_toList]

/-- What is left of the values that obey all rules. -/
def Filled.settings (values : Filled) (address : SocketAddress) (level : Verbosity) : Settings :=
  { address, level
    gracefulShutdown := values.gracefulShutdown
    requestTimeout := if values.requestTimeout = 0 then none else some values.requestTimeout
    format := if values.json then .json else .compact
    url := values.url.bind trimmedUrl?
    maxConnections := values.maxConnections
    capacity := values.capacity }

theorem levelOf_eq (text : Option String) :
    levelOf text = match Verbosity.read? (text.getD "info") with
      | some level => .ok level
      | none => .error .badLevel := by
  cases text with
  | none =>
    have hinfo : Verbosity.read? "info" = some (.upTo .info) := by decide +kernel
    rw [Option.getD_none, hinfo]
    rfl
  | some text => rfl

theorem ofRaw_eq (raw : Raw) :
    ofRaw raw =
      if raw.filled.port = 0 then .error .zeroPort
      else match SocketAddress.ofHostPort? raw.filled.host raw.filled.port.toNat with
        | none => .error (.badAddress (hostPort raw.filled.host raw.filled.port))
        | some address =>
          if raw.filled.gracefulShutdown = 0 then .error .zeroGracefulShutdown
          else match Verbosity.read? raw.filled.level with
            | none => .error .badLevel
            | some level =>
              if raw.filled.maxConnections = 0 then .error .zeroMaxConnections
              else if raw.filled.capacity = 0 then .error .zeroCapacity
              else .ok (raw.filled.settings address level) := by
  unfold ofRaw
  rw [levelOf_eq]
  unfold Raw.filled Filled.settings
  dsimp only
  by_cases hport : raw.port.getD 8080 = 0
  · rw [if_pos hport, if_pos hport]
    rfl
  rw [if_neg hport, if_neg hport]
  cases SocketAddress.ofHostPort? (raw.host.getD "127.0.0.1") (raw.port.getD 8080).toNat with
  | none => rfl
  | some address =>
    dsimp only
    by_cases hgraceful : raw.gracefulShutdown.getD 30 = 0
    · rw [if_pos hgraceful, if_pos hgraceful]
      rfl
    rw [if_neg hgraceful, if_neg hgraceful]
    cases Verbosity.read? (raw.level.getD "info") with
    | none => rfl
    | some level =>
      dsimp only [bind, Except.bind]
      by_cases hconnections : raw.maxConnections.getD 8 = 0
      · rw [if_pos hconnections, if_pos hconnections]
        rfl
      rw [if_neg hconnections, if_neg hconnections]
      by_cases hcapacity : raw.capacity.getD 10000 = 0
      · rw [if_pos hcapacity, if_pos hcapacity]
        rfl
      rw [if_neg hcapacity, if_neg hcapacity]
      rfl

section

variable {values : Filled} {settings settings' : Settings}

theorem Filled.gives_settings {address : SocketAddress} {level : Verbosity}
    (haddress : SocketAddress.ofHostPort? values.host values.port.toNat = some address)
    (hlevel : Verbosity.read? values.level = some level) :
    values.Gives (values.settings address level) where
  address := haddress
  gracefulShutdown := rfl
  requestTimeout seconds := by
    unfold Filled.settings
    by_cases h : values.requestTimeout = 0
    · simp [h]
    · simp only [h, if_false, Option.some.injEq]
      constructor
      · rintro rfl
        exact ⟨rfl, h⟩
      · rintro ⟨rfl, -⟩
        rfl
  level := hlevel
  format := rfl
  noUrl := by
    unfold Filled.settings
    simp only [Option.bind_eq_none_iff, trimmedUrl?_eq_none_iff]
  url text := by
    unfold Filled.settings
    simp only [Option.bind_eq_some_iff, trimmedUrl?_eq_some_iff]
  maxConnections := rfl
  capacity := rfl

theorem Filled.Gives.unique (h : values.Gives settings) (h' : values.Gives settings') :
    settings = settings' := by
  have haddress := Option.some.inj (h.address.symm.trans h'.address)
  have hlevel := Option.some.inj (h.level.symm.trans h'.level)
  have htimeout : settings.requestTimeout = settings'.requestTimeout :=
    Option.ext fun seconds => (h.requestTimeout seconds).trans (h'.requestTimeout seconds).symm
  have hurl : settings.url = settings'.url :=
    Option.ext fun text => (h.url text).trans (h'.url text).symm
  have hgraceful := h.gracefulShutdown.trans h'.gracefulShutdown.symm
  have hformat := h.format.trans h'.format.symm
  have hconnections := h.maxConnections.trans h'.maxConnections.symm
  have hcapacity := h.capacity.trans h'.capacity.symm
  cases settings
  cases settings'
  simp_all

end

/-- **Values make settings, or the first rule that they violate is reported.** -/
theorem ofRaw_cases (raw : Raw) :
    (∃ violation, ofRaw raw = .error violation ∧
      raw.filled.rules.find? raw.filled.violates = some violation) ∨
    ∃ settings, ofRaw raw = .ok settings ∧ raw.filled.Valid ∧ raw.filled.Gives settings := by
  rw [ofRaw_eq]
  unfold Filled.rules
  by_cases hport : raw.filled.port = 0
  · rw [if_pos hport]
    exact Or.inl ⟨_, rfl, by simp [Filled.violates, hport]⟩
  rw [if_neg hport]
  cases haddress : SocketAddress.ofHostPort? raw.filled.host raw.filled.port.toNat with
  | none => exact Or.inl ⟨_, rfl, by simp [Filled.violates, hport, haddress]⟩
  | some address =>
    dsimp only
    by_cases hgraceful : raw.filled.gracefulShutdown = 0
    · rw [if_pos hgraceful]
      exact Or.inl ⟨_, rfl, by simp [Filled.violates, hport, haddress, hgraceful]⟩
    rw [if_neg hgraceful]
    cases hlevel : Verbosity.read? raw.filled.level with
    | none => exact Or.inl ⟨_, rfl, by simp [Filled.violates, hport, haddress, hgraceful, hlevel]⟩
    | some level =>
      dsimp only
      by_cases hconnections : raw.filled.maxConnections = 0
      · rw [if_pos hconnections]
        exact Or.inl ⟨_, rfl,
          by simp [Filled.violates, hport, haddress, hgraceful, hlevel, hconnections]⟩
      rw [if_neg hconnections]
      by_cases hcapacity : raw.filled.capacity = 0
      · rw [if_pos hcapacity]
        exact Or.inl ⟨_, rfl,
          by simp [Filled.violates, hport, haddress, hgraceful, hlevel, hconnections, hcapacity]⟩
      rw [if_neg hcapacity]
      exact Or.inr ⟨_, rfl,
        ⟨hport, ⟨address, haddress⟩, hgraceful, ⟨level, hlevel⟩, hconnections, hcapacity⟩,
        Filled.gives_settings haddress hlevel⟩

theorem Filled.Valid.find?_rules {values : Filled} (h : values.Valid) :
    values.rules.find? values.violates = none := by
  obtain ⟨address, haddress⟩ := h.address
  obtain ⟨level, hlevel⟩ := h.level
  simp [Filled.rules, Filled.violates, h.port, haddress, h.gracefulShutdown, hlevel,
    h.maxConnections, h.capacity]

theorem ofRaw_eq_ok_iff {raw : Raw} {settings : Settings} :
    ofRaw raw = .ok settings ↔ raw.filled.Valid ∧ raw.filled.Gives settings := by
  rcases ofRaw_cases raw with ⟨violation, herror, hfind⟩ | ⟨other, hok, hvalid, hgives⟩
  · rw [herror]
    refine iff_of_false nofun fun h => ?_
    rw [h.1.find?_rules] at hfind
    cases hfind
  · rw [hok, Except.ok.injEq]
    constructor
    · rintro rfl
      exact ⟨hvalid, hgives⟩
    · rintro ⟨-, hother⟩
      exact hgives.unique hother

theorem ofRaw_eq_error_iff {raw : Raw} {violation : Violation} :
    ofRaw raw = .error violation ↔
      raw.filled.rules.find? raw.filled.violates = some violation := by
  rcases ofRaw_cases raw with ⟨other, herror, hfind⟩ | ⟨settings, hok, hvalid, -⟩
  · rw [herror, hfind, Except.error.injEq, Option.some.injEq]
  · rw [hok, hvalid.find?_rules]
    exact iff_of_false nofun nofun

/-- **Settings are made of valid values, and the first violation of others is reported.** With
defaults for what was left out:
* there are settings if and only if the port is not zero, host and port make an address, the time to
  shut down is not zero, the level is one, and neither the connections nor the capacity are zero;
* they say what the values say, where a timeout of zero is none, a URL of blanks is none, and any
  other URL is what stands between the blanks;
* otherwise the first violated rule is reported, in the order of the keys.
-/
theorem valid_or_first_violation (raw : Raw) :
    ((∃ settings, ofRaw raw = .ok settings) ↔ raw.filled.Valid) ∧
    (∀ settings, ofRaw raw = .ok settings ↔ raw.filled.Valid ∧ raw.filled.Gives settings) ∧
    (∀ violation, ofRaw raw = .error violation ↔
      raw.filled.rules.find? raw.filled.violates = some violation) ∧
    raw.filled.rules.map Violation.key = ["server.port", "server.addr",
      "server.graceful_shutdown_seconds", "logging.level", "database.max_connections",
      "cache.capacity"] := by
  rcases ofRaw_cases raw with ⟨violation, herror, hfind⟩ | ⟨settings, hok, hvalid, hgives⟩
  · have hinvalid : ¬ raw.filled.Valid := by
      intro hvalid
      rw [hvalid.find?_rules] at hfind
      cases hfind
    refine ⟨?_, fun settings => ?_, fun other => ?_, rfl⟩
    · rw [herror]
      exact iff_of_false (by simp) hinvalid
    · rw [herror]
      exact iff_of_false nofun fun h => hinvalid h.1
    · rw [herror, hfind, Except.error.injEq, Option.some.injEq]
  · refine ⟨?_, fun other => ?_, fun violation => ?_, rfl⟩
    · exact iff_of_true ⟨settings, hok⟩ hvalid
    · rw [hok, Except.ok.injEq]
      constructor
      · rintro rfl
        exact ⟨hvalid, hgives⟩
      · rintro ⟨-, hother⟩
        exact hgives.unique hother
    · rw [hok, hvalid.find?_rules]
      exact iff_of_false nofun nofun

/-- Of three violations the one of the address is told, which comes first in the order of keys. -/
example :
    ofRaw { host := some "::1", level := some "loud", capacity := some 0 } =
      .error (.badAddress "::1:8080") := by
  decide +kernel

end Settings

end Catalogue
