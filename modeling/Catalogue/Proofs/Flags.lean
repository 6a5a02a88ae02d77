import Catalogue.Settings.CommandLine
import Mathlib.Data.List.TakeDrop
import Mathlib.Tactic.Common

/-!
# What a command line sets

The keys of the settings, and which flag sets each of them. A command line that is accepted assigns
texts to flags (`Gives`), and its values are what these texts mean, key by key
(`Invocation.exists_gives`): no flag sets the value of another key, and none is left out. A flag
that still waits for its value, or has got it and is not checked yet, is carried through the
reading as what is due (`exists_completes_of_take`).
-/

namespace Catalogue.Settings

/-- The keys of the settings. -/
inductive Key where
  | host
  | port
  | gracefulShutdown
  | requestTimeout
  | level
  | json
  | url
  | maxConnections
  | capacity
  deriving DecidableEq, Repr

namespace Key

/-- What the value of a key is. -/
abbrev Value : Key → Type
  | .host | .level | .url => String
  | .port => UInt16
  | .gracefulShutdown | .requestTimeout | .capacity => UInt64
  | .json => Bool
  | .maxConnections => UInt32

/-- The flag that sets a key. -/
def flag : Key → Flag
  | .host => .host
  | .port => .port
  | .gracefulShutdown => .gracefulShutdown
  | .requestTimeout => .requestTimeout
  | .level => .level
  | .json => .json
  | .url => .url
  | .maxConnections => .maxConnections
  | .capacity => .capacity

/-- The value of a key. -/
def get (raw : Raw) : (key : Key) → Option key.Value
  | .host => raw.host
  | .port => raw.port
  | .gracefulShutdown => raw.gracefulShutdown
  | .requestTimeout => raw.requestTimeout
  | .level => raw.level
  | .json => raw.json
  | .url => raw.url
  | .maxConnections => raw.maxConnections
  | .capacity => raw.capacity

/-- Settings with the value of a key. -/
def put (raw : Raw) : (key : Key) → key.Value → Raw
  | .host, value => { raw with host := some value }
  | .port, value => { raw with port := some value }
  | .gracefulShutdown, value => { raw with gracefulShutdown := some value }
  | .requestTimeout, value => { raw with requestTimeout := some value }
  | .level, value => { raw with level := some value }
  | .json, value => { raw with json := some value }
  | .url, value => { raw with url := some value }
  | .maxConnections, value => { raw with maxConnections := some value }
  | .capacity, value => { raw with capacity := some value }

/-- What the text behind a flag means. -/
def ofText? : (key : Key) → String → Option key.Value
  | .host, text | .level, text | .url, text => some text
  | .port, text => (CommandLine.signed? 16 text).map UInt16.ofNat
  | .gracefulShutdown, text | .requestTimeout, text | .capacity, text =>
    (Numeral.readUnsigned? 64 text).map UInt64.ofNat
  | .json, text => CommandLine.boolean? text
  | .maxConnections, text => (CommandLine.signed? 32 text).map UInt32.ofNat

theorem get_orElse (first second : Raw) (key : Key) :
    key.get (first.orElse second) = (key.get first).or (key.get second) := by
  cases key <;> rfl

theorem get_put_self (raw : Raw) (key : Key) (value : key.Value) :
    key.get (key.put raw value) = some value := by
  cases key <;> rfl

theorem get_put_of_ne (raw : Raw) {key other : Key} (value : other.Value) (h : key ≠ other) :
    key.get (other.put raw value) = key.get raw := by
  cases other <;> cases key <;> first | rfl | exact absurd rfl h

theorem flag_injective : Function.Injective flag := by
  intro key other h
  cases key <;> cases other <;> first | rfl | cases h

/-- A flag names the file of settings or sets a key. -/
theorem exists_flag_eq (flag : Flag) (h : flag ≠ .configFile) : ∃ key : Key, key.flag = flag := by
  cases flag with
  | configFile => exact absurd rfl h
  | host => exact ⟨.host, rfl⟩
  | port => exact ⟨.port, rfl⟩
  | gracefulShutdown => exact ⟨.gracefulShutdown, rfl⟩
  | requestTimeout => exact ⟨.requestTimeout, rfl⟩
  | level => exact ⟨.level, rfl⟩
  | json => exact ⟨.json, rfl⟩
  | url => exact ⟨.url, rfl⟩
  | maxConnections => exact ⟨.maxConnections, rfl⟩
  | capacity => exact ⟨.capacity, rfl⟩

end Key

namespace CommandLine

/-- Arguments that assign texts to flags of a command, each behind an equals sign or as an argument
of its own. -/
inductive Assigns (command : Option Command) : List String → List (Flag × String) → Prop
  | nil : Assigns command [] []
  | joined {flag : Flag} {text : String} {rest : List String} {given : List (Flag × String)} :
      flag ∈ Flag.known command → Assigns command rest given →
        Assigns command (("--" ++ flag.name ++ "=" ++ text) :: rest) ((flag, text) :: given)
  | apart {flag : Flag} {text : String} {rest : List String} {given : List (Flag × String)} :
      flag ∈ Flag.known command → Shape.of text = .plain → Assigns command rest given →
        Assigns command (("--" ++ flag.name) :: text :: rest) ((flag, text) :: given)

/-- What a command line gives behind its command: without a command nothing, else what is assigned
to the flags of the command. A double dash may stand at the end. -/
inductive Gives : Option Command → List String → List (Flag × String) → Prop
  | bare {front dashes : List String} {set : List (Flag × String)} :
      Assigns none front set → dashes = [] ∨ dashes = ["--"] → Gives none (front ++ dashes) []
  | behind {command : Command} {front rest dashes : List String}
      {set given : List (Flag × String)} :
      Assigns none front set → Assigns (some command) rest given → dashes = [] ∨ dashes = ["--"] →
        Gives (some command) (front ++ command.word :: (rest ++ dashes)) given

variable {command : Option Command} {progress settled next final : Progress} {flag : Flag}
  {text argument : String} {given more : List (Flag × String)}

theorem Assigns.known {front : List String} (h : Assigns command front given) :
    ∀ entry ∈ given, entry.1 ∈ Flag.known command := by
  induction h with
  | nil => simp
  | joined hflag _ ih => exact List.forall_mem_cons.2 ⟨hflag, ih⟩
  | apart hflag _ _ ih => exact List.forall_mem_cons.2 ⟨hflag, ih⟩

/-! ### One flag after another -/

namespace Progress

/-- Flags that are checked one after another, each with its text. -/
inductive Accepts : Progress → List (Flag × String) → Progress → Prop
  | nil (progress : Progress) : Accepts progress [] progress
  | cons {progress next final : Progress} {flag : Flag} {text : String}
      {given : List (Flag × String)} :
      progress.accept flag (some text) = .ok next → Accepts next given final →
        Accepts progress ((flag, text) :: given) final

theorem Accepts.append (h : Accepts progress given next) (hmore : Accepts next more final) :
    Accepts progress (given ++ more) final := by
  induction h with
  | nil => exact hmore
  | cons haccept _ ih => exact .cons haccept (ih hmore)

theorem store_configFile (h : progress.store .configFile text = .ok next) :
    next.pending = progress.pending ∧ next.seen = progress.seen ∧
      next.overrides = progress.overrides := by
  unfold store at h
  dsimp only at h
  split_ifs at h
  cases h
  exact ⟨rfl, rfl, rfl⟩

theorem store_flag (progress : Progress) (key : Key) (text : String) :
    progress.store key.flag text =
      match key.ofText? text with
      | some value => .ok { progress with overrides := key.put progress.overrides value }
      | none => .error .malformedValue := by
  cases key with
  | host | level | url => rfl
  | json =>
    simp only [store, Key.flag, Key.ofText?]
    cases boolean? text <;> rfl
  | port =>
    simp only [store, Key.flag, Key.ofText?]
    cases signed? 16 text <;> rfl
  | maxConnections =>
    simp only [store, Key.flag, Key.ofText?]
    cases signed? 32 text <;> rfl
  | gracefulShutdown | requestTimeout | capacity =>
    simp only [store, Key.flag, Key.ofText?]
    cases Numeral.readUnsigned? 64 text <;> rfl

/-- **What one flag does**: it sets its own key to what its text means, and no other key. -/
theorem accept_eq_ok (h : progress.accept flag (some text) = .ok next) :
    flag ∉ progress.seen ∧ next.seen = flag :: progress.seen ∧ next.pending = progress.pending ∧
      ∀ key : Key,
        (key.flag = flag → ∃ value, key.ofText? text = some value ∧
          key.get next.overrides = some value) ∧
        (key.flag ≠ flag → key.get next.overrides = key.get progress.overrides) := by
  unfold accept at h
  dsimp only at h
  split_ifs at h with hseen
  by_cases hfile : flag = .configFile
  · rw [hfile] at h ⊢
    obtain ⟨hpending, hnext, hoverrides⟩ := store_configFile h
    refine ⟨hfile ▸ hseen, hnext, hpending, fun key => ⟨fun hkey => ?_, fun _ => ?_⟩⟩
    · cases key <;> cases hkey
    · rw [hoverrides]
  · obtain ⟨key, rfl⟩ := Key.exists_flag_eq flag hfile
    rw [store_flag] at h
    split at h
    · rename_i value hvalue
      cases h
      refine ⟨hseen, rfl, rfl, fun other => ⟨fun hother => ?_, fun hother => ?_⟩⟩
      · obtain rfl := Key.flag_injective hother
        exact ⟨value, hvalue, Key.get_put_self _ _ value⟩
      · exact Key.get_put_of_ne _ value fun heq => hother (heq ▸ rfl)
    · cases h

theorem Accepts.not_mem_seen (h : Accepts progress given final) :
    ∀ entry ∈ given, entry.1 ∉ progress.seen := by
  induction h with
  | nil => simp
  | cons haccept _ ih =>
    obtain ⟨hseen, hnext, -⟩ := accept_eq_ok haccept
    rw [List.forall_mem_cons]
    refine ⟨hseen, fun entry hentry hmem => ih entry hentry ?_⟩
    rw [hnext]
    exact List.mem_cons_of_mem _ hmem

/-- **What flags do one after another**: a key has the value of the text that its flag was given,
and the one it had before if its flag was given none. -/
theorem Accepts.get_overrides (h : Accepts progress given final) (key : Key) :
    (∀ text, (key.flag, text) ∈ given → ∃ value, key.ofText? text = some value ∧
      key.get final.overrides = some value) ∧
    ((∀ text, (key.flag, text) ∉ given) →
      key.get final.overrides = key.get progress.overrides) := by
  induction h with
  | nil => exact ⟨fun text hmem => absurd hmem List.not_mem_nil, fun _ => rfl⟩
  | @cons progress next final flag text given haccept hrest ih =>
    obtain ⟨-, hnext, -, hkey⟩ := accept_eq_ok haccept
    obtain ⟨hset, hkept⟩ := ih
    refine ⟨fun text' hmem => ?_, fun hnone => ?_⟩
    · rcases List.mem_cons.1 hmem with heq | hmem
      · -- the flag does not come again, so its value stays
        obtain ⟨hflag, rfl⟩ := Prod.mk.inj heq
        have hlater : ∀ text, (key.flag, text) ∉ given := by
          intro text hmem
          have hunseen := hrest.not_mem_seen _ hmem
          rw [hnext, hflag] at hunseen
          exact hunseen List.mem_cons_self
        rw [hkept hlater]
        exact (hkey key).1 hflag
      · exact hset text' hmem
    · have hflag : key.flag ≠ flag := fun heq => hnone text (heq ▸ List.mem_cons_self)
      rw [hkept fun text hmem => hnone text (List.mem_cons_of_mem _ hmem)]
      exact (hkey key).2 hflag

/-- What has been read, without the flag that is not checked yet. -/
def base (progress : Progress) : Progress := { progress with pending := none }

/-- Arguments behind what has been read, and what is assigned by them and by the flag that is not
checked yet, whose text may be the first of them. -/
def Completes (command : Option Command) (progress : Progress) (front : List String)
    (given : List (Flag × String)) : Prop :=
  match progress.pending with
  | none => Assigns command front given
  | some (flag, some text) => ∃ more, given = (flag, text) :: more ∧ Assigns command front more
  | some (flag, none) =>
    ∃ text rest more, front = text :: rest ∧ given = (flag, text) :: more ∧
      Shape.of text = .plain ∧ Assigns command rest more

/-- Checking the flag that is pending accepts what is due. -/
theorem exists_due (h : progress.settle = .ok settled) :
    settled.pending = none ∧ ∃ due, Accepts progress.base due settled ∧
      ∀ command front more, Assigns command front more →
        Completes command progress front (due ++ more) := by
  unfold settle at h
  split at h
  · rename_i hpending
    cases h
    refine ⟨hpending, [], ?_, fun command front more hmore => ?_⟩
    · have hbase : progress.base = progress := by
        unfold base
        rw [← hpending]
      rw [hbase]
      exact .nil progress
    · unfold Completes
      rw [hpending]
      exact hmore
  · rename_i flag value hpending
    cases value with
    | none => cases h
    | some text =>
      obtain ⟨-, -, hsettled, -⟩ := accept_eq_ok h
      refine ⟨hsettled, [(flag, text)], .cons h (.nil settled), fun command front more hmore => ?_⟩
      unfold Completes
      rw [hpending]
      exact ⟨more, rfl, hmore⟩

end Progress

/-! ### Arguments -/

theorem splitFirst_append (separator : Char) (text : List Char) :
    text = (Text.splitFirst separator text).1 ++
      match (Text.splitFirst separator text).2 with
      | none => []
      | some back => separator :: back := by
  have hsplit := List.takeWhile_append_dropWhile (p := (· ≠ separator)) (l := text)
  have hhead := List.head?_dropWhile_not (· ≠ separator) text
  unfold Text.splitFirst
  rw [List.span_eq_takeWhile_dropWhile]
  cases hback : text.dropWhile (· ≠ separator) with
  | nil =>
    rw [hback] at hsplit
    exact hsplit.symm
  | cons c back =>
    rw [hback] at hsplit hhead
    obtain rfl : c = separator := by simpa using hhead
    exact hsplit.symm

/-- A long argument is a name behind two dashes, with any value it has behind an equals sign. -/
theorem eq_of_shape {name : String} {value : Option String}
    (h : Shape.of argument = .long name value) :
    argument = "--" ++ name ++ value.elim "" fun text => "=" ++ text := by
  unfold Shape.of at h
  split at h
  · rename_i rest harg
    have hrest := splitFirst_append '=' rest
    generalize Text.splitFirst '=' rest = parts at h hrest
    obtain ⟨front, back⟩ := parts
    cases h
    rw [← String.toList_inj, harg, hrest]
    cases back <;> simp
  · cases h
  · cases h

theorem mem_of_ofName? {name : String} (h : Flag.ofName? command name = some flag) :
    flag ∈ Flag.known command ∧ flag.name = name := by
  have hname := List.find?_some (p := fun flag : Flag => flag.name == name) h
  exact ⟨List.mem_of_find?_eq_some h, eq_of_beq hname⟩

namespace Progress

/-- What a flag leads to that is taken: the one before it is checked, and so is this one, unless its
text is yet to come. -/
theorem exists_of_takeLong {name : String} {value : Option String}
    (h : progress.takeLong command name value = .ok next) :
    ∃ flag settled, flag ∈ Flag.known command ∧ flag.name = name ∧ progress.settle = .ok settled ∧
      (value = none → next = { settled with pending := some (flag, none) }) ∧
      ∀ text, value = some text → settled.accept flag (some text) = .ok next := by
  unfold takeLong at h
  split at h
  · cases h
  · cases h
  · rename_i flag _ hflag
    obtain ⟨hknown, hname⟩ := mem_of_ofName? hflag
    cases hsettle : progress.settle with
    | error stop => rw [hsettle] at h; cases h
    | ok settled =>
      rw [hsettle] at h
      refine ⟨flag, settled, hknown, hname, rfl, ?_, ?_⟩
      · rintro rfl
        exact (Except.ok.inj h).symm
      · rintro text rfl
        exact h

/-- **What one argument does**: what it completes is completed by it and the arguments behind it. -/
theorem exists_completes_of_take {front : List String}
    (h : progress.take command argument = .ok next) (hfront : Completes command next front given)
    (haccepts : Accepts next.base given final) :
    ∃ given', Completes command progress (argument :: front) given' ∧
      Accepts progress.base given' final := by
  unfold take at h
  split at h
  · rename_i name value hshape
    obtain ⟨flag, settled, hknown, rfl, hsettle, hwaits, htext⟩ := exists_of_takeLong h
    obtain ⟨hpending, due, hdue, hcompletes⟩ := exists_due hsettle
    have hargument := eq_of_shape hshape
    cases value with
    | none =>
      -- the text is the next argument
      obtain rfl := hwaits rfl
      obtain ⟨text, rest, more, rfl, rfl, hplain, hmore⟩ := hfront
      have hbase : base { settled with pending := some (flag, none) } = settled := by
        unfold base
        rw [← hpending]
      rw [hbase] at haccepts
      refine ⟨due ++ (flag, text) :: more, hcompletes _ _ _ ?_, hdue.append haccepts⟩
      rw [hargument, Option.elim_none, String.append_empty]
      exact .apart hknown hplain hmore
    | some text =>
      have hnext := htext text rfl
      obtain ⟨-, -, hkept, -⟩ := accept_eq_ok hnext
      have hbase : next.base = next := by
        unfold base
        rw [← hpending, ← hkept]
      have hmore : Assigns command front given := by
        unfold Completes at hfront
        rw [hkept, hpending] at hfront
        exact hfront
      rw [hbase] at haccepts
      refine ⟨due ++ (flag, text) :: given, hcompletes _ _ _ ?_, hdue.append (.cons hnext haccepts)⟩
      rw [hargument, Option.elim_some, ← String.append_assoc]
      exact .joined hknown hmore
  · split at h <;> cases h
  · rename_i hshape
    split at h
    · rename_i flag hpending
      cases h
      obtain ⟨more, rfl, hmore⟩ := hfront
      refine ⟨_, ?_, haccepts⟩
      unfold Completes
      rw [hpending]
      exact ⟨argument, front, more, rfl, rfl, hshape, hmore⟩
    · cases h

end Progress

/-- What stands behind the flags that are read: nothing but a double dash, or a command. -/
def Ending (next : Option (Command × List String)) (ending : List String) : Prop :=
  match next with
  | none => ending = [] ∨ ending = ["--"]
  | some (command, rest) => ending = command.word :: rest

theorem word_of_command? {word : String} {command : Command} (h : command? word = some command) :
    word = command.word := by
  unfold command? at h
  split_ifs at h with hserve hmigrate
  · cases h
    exact hserve
  · cases h
    exact hmigrate

/-- **What arguments do one after another**, up to their end or to a command. -/
theorem exists_completes_of_read {arguments : List String} {reading : Reading}
    (h : read command progress arguments = .ok reading)
    (hsettle : reading.progress.settle = .ok final) :
    ∃ front ending given, arguments = front ++ ending ∧ Ending reading.next ending ∧
      Progress.Completes command progress front given ∧
        Progress.Accepts progress.base given final := by
  -- where reading ends, what is due is accepted
  have hend : ∃ given, Progress.Completes command reading.progress [] given ∧
      Progress.Accepts reading.progress.base given final := by
    obtain ⟨-, due, hdue, hcompletes⟩ := Progress.exists_due hsettle
    have hnil := hcompletes command [] [] .nil
    rw [List.append_nil] at hnil
    exact ⟨due, hnil, hdue⟩
  induction arguments generalizing progress with
  | nil =>
    cases h
    obtain ⟨given, hcompletes, haccepts⟩ := hend
    exact ⟨[], [], given, rfl, Or.inl rfl, hcompletes, haccepts⟩
  | cons argument rest ih =>
    unfold read at h
    dsimp only at h
    split at h
    · cases h
    split at h
    · rename_i command' hword
      cases h
      have hargument : argument = command'.word := by
        split_ifs at hword
        exact word_of_command? hword
      obtain ⟨given, hcompletes, haccepts⟩ := hend
      exact ⟨[], _, given, rfl, by rw [hargument]; rfl, hcompletes, haccepts⟩
    split at h
    · rename_i hdashes
      split at h
      · cases h
        obtain ⟨given, hcompletes, haccepts⟩ := hend
        exact ⟨[], _, given, rfl, Or.inr (by rw [hdashes]), hcompletes, haccepts⟩
      · cases h
    · split at h
      · rename_i next htake
        obtain ⟨front, ending, given, rfl, hending, hfront, haccepts⟩ := ih h
        obtain ⟨given', hcompletes, haccepts'⟩ :=
          Progress.exists_completes_of_take htake hfront haccepts
        exact ⟨argument :: front, ending, given', rfl, hending, hcompletes, haccepts'⟩
      · cases h

/-- Commands have no commands of their own. -/
theorem next_eq_none {command : Command} {arguments : List String} {reading : Reading}
    (h : read (some command) progress arguments = .ok reading) : reading.next = none := by
  induction arguments generalizing progress with
  | nil =>
    cases h
    rfl
  | cons argument rest ih =>
    unfold read at h
    dsimp only at h
    split at h
    · cases h
    split at h
    · rename_i hword
      cases hword
    split at h
    · split at h
      · cases h
        rfl
      · cases h
    · split at h
      · exact ih h
      · cases h

end CommandLine

namespace Invocation

open CommandLine

variable {standIn : Option String} {arguments : List String} {invocation : Invocation}

/-- An accepted command line is read without a mistake up to its command and behind it, and has the
values that were set behind it. -/
theorem ofArguments_eq_ok (h : ofArguments standIn arguments = .ok invocation) :
    ∃ front settled, read none {} arguments = .ok front ∧ front.progress.settle = .ok settled ∧
      match front.next with
      | none => invocation.command = none ∧ invocation.overrides = {}
      | some (command, rest) => ∃ behind final, read (some command) {} rest = .ok behind ∧
          behind.progress.settle = .ok final ∧ invocation.command = some command ∧
            invocation.overrides = final.overrides := by
  unfold ofArguments at h
  cases hfront : read none {} arguments with
  | error stop => rw [hfront] at h; cases h
  | ok front =>
    rw [hfront] at h
    obtain ⟨progress, next⟩ := front
    simp only [bind, Except.bind, pure, Except.pure] at h
    cases next with
    | none =>
      cases hsettle : progress.settle with
      | error stop => simp [hsettle] at h
      | ok settled =>
        refine ⟨_, settled, rfl, hsettle, ?_⟩
        simp only [hsettle] at h
        split_ifs at h
        cases h
        exact ⟨rfl, rfl⟩
    | some next =>
      obtain ⟨command, rest⟩ := next
      dsimp only at h
      cases hbehind : read (some command) {} rest with
      | error stop => simp [hbehind] at h
      | ok behind =>
        cases hfinal : behind.progress.settle with
        | error stop => simp [hbehind, hfinal] at h
        | ok final =>
          cases hsettle : progress.settle with
          | error stop => simp [hbehind, hfinal, hsettle] at h
          | ok settled =>
            refine ⟨_, settled, rfl, hsettle, behind, final, hbehind, hfinal, ?_⟩
            simp only [hbehind, hfinal, hsettle] at h
            split_ifs at h
            cases h
            exact ⟨rfl, rfl⟩

/-- **What a command line sets.** The values of an accepted command line are what the texts mean
that it gives to the flags of its command, each to its own key. -/
theorem exists_gives (h : ofArguments standIn arguments = .ok invocation) :
    ∃ given, Gives invocation.command arguments given ∧ ∀ key : Key,
      (∀ text, (key.flag, text) ∈ given → ∃ value, key.ofText? text = some value ∧
        key.get invocation.overrides = some value) ∧
      ((∀ text, (key.flag, text) ∉ given) → key.get invocation.overrides = none) := by
  have hempty : ∀ key : Key, key.get {} = none := by
    intro key
    cases key <;> rfl
  obtain ⟨reading, settled, hread, hsettle, hinvocation⟩ := ofArguments_eq_ok h
  obtain ⟨front, ending, set, rfl, hending, hset, -⟩ := exists_completes_of_read hread hsettle
  obtain ⟨progress, next⟩ := reading
  cases next with
  | none =>
    obtain ⟨hcommand, hoverrides⟩ := hinvocation
    rw [hcommand, hoverrides]
    refine ⟨[], .bare hset hending, fun key => ⟨fun text hmem => ?_, fun _ => hempty key⟩⟩
    exact absurd hmem List.not_mem_nil
  | some next =>
    obtain ⟨command, rest⟩ := next
    obtain ⟨behind, final, hbehind, hfinal, hcommand, hoverrides⟩ := hinvocation
    have hnone := next_eq_none hbehind
    obtain ⟨front', dashes, given, rfl, hdashes, hgiven, haccepts⟩ :=
      exists_completes_of_read hbehind hfinal
    rw [hnone] at hdashes
    obtain rfl := hending
    rw [hcommand, hoverrides]
    refine ⟨given, .behind hset hgiven hdashes, fun key => ?_⟩
    obtain ⟨hvalue, hkept⟩ := haccepts.get_overrides key
    exact ⟨hvalue, fun hnot => (hkept hnot).trans (hempty key)⟩

end Invocation

end Catalogue.Settings
