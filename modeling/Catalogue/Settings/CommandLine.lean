import Catalogue.Settings.Raw
import Catalogue.Text.Reader

/-!
# The command line

A command line may name a file of settings, then a command, then values for that command. A flag
takes its value from behind an equals sign or from the next argument. Such a value is checked only
when the next known flag or the end is reached, so an argument that is not known is reported first.
What belongs to a command is read before the flags in front of it are checked.
-/

namespace Catalogue.Settings

/-- What the program is asked to do. -/
inductive Command where
  | serve
  | migrate
  deriving DecidableEq, Repr

/-- The word for a command. -/
def Command.word : Command → String
  | .serve => "serve"
  | .migrate => "migrate"

/-- Flags that take a value. -/
inductive Flag where
  | configFile
  | host
  | port
  | gracefulShutdown
  | requestTimeout
  | level
  | json
  | url
  | maxConnections
  | capacity
  deriving DecidableEq, Repr

namespace Flag

/-- The name of a flag. -/
def name : Flag → String
  | .configFile => "config-file"
  | .host => "server-host"
  | .port => "server-port"
  | .gracefulShutdown => "server-graceful-shutdown-seconds"
  | .requestTimeout => "server-request-timeout-seconds"
  | .level => "log-level"
  | .json => "log-json"
  | .url => "database-url"
  | .maxConnections => "database-max-connections"
  | .capacity => "cache-capacity"

/-- The flags of a command, or those in front of any command. -/
def known : Option Command → List Flag
  | none => [.configFile]
  | some .serve =>
    [.host, .port, .gracefulShutdown, .requestTimeout, .level, .json, .url, .maxConnections,
      .capacity]
  | some .migrate => [.url]

/-- The flag of a name. -/
def ofName? (command : Option Command) (name : String) : Option Flag :=
  (known command).find? fun flag => flag.name == name

end Flag

namespace CommandLine

/-- Why a command line leads to no run. The first two are requests of their own, the others are
mistakes. -/
inductive Stop where
  | help
  | version
  | unknownArgument
  | unknownCommand
  | missingValue
  | malformedValue
  | needlessValue
  | repeatedFlag
  deriving DecidableEq, Repr

/-- A natural number that is read with a sign. -/
def signed? (bits : Nat) (text : String) : Option Nat :=
  match Numeral.read .int64 text.toList with
  | .ok i => if (Numeral.Range.unsigned bits).holds i then some i.toNat else none
  | .error _ => none

/-- The truth value of a word. -/
def boolean? (text : String) : Option Bool :=
  let word := text.toLower
  if word ∈ ["y", "yes", "t", "true", "on", "1"] then some true
  else if word ∈ ["n", "no", "f", "false", "off", "0"] then some false
  else none

/-- What flags have said so far. A flag that is not checked yet is pending, with its value if it has
got one. -/
structure Progress where
  pending : Option (Flag × Option String) := none
  seen : List Flag := []
  configFile : Option String := none
  overrides : Raw := {}
  deriving DecidableEq, Repr

namespace Progress

/-- Whether the next argument is the value of a flag. -/
def waits (progress : Progress) : Bool := progress.pending.any fun (_, value) => value.isNone

/-- Notes the value of a flag. -/
def store (progress : Progress) (flag : Flag) (text : String) : Except Stop Progress :=
  let raw := progress.overrides
  let with? {α : Type} (value : Option α) (f : α → Raw) : Except Stop Progress :=
    match value with
    | some v => .ok { progress with overrides := f v }
    | none => .error .malformedValue
  match flag with
  | .configFile =>
    if text = "" then .error .missingValue else .ok { progress with configFile := some text }
  | .host => .ok { progress with overrides := { raw with host := some text } }
  | .level => .ok { progress with overrides := { raw with level := some text } }
  | .url => .ok { progress with overrides := { raw with url := some text } }
  | .json => with? (boolean? text) fun b => { raw with json := some b }
  | .port => with? (signed? 16 text) fun n => { raw with port := some (.ofNat n) }
  | .maxConnections =>
    with? (signed? 32 text) fun n => { raw with maxConnections := some (.ofNat n) }
  | .gracefulShutdown =>
    with? (Numeral.readUnsigned? 64 text) fun n => { raw with gracefulShutdown := some (.ofNat n) }
  | .requestTimeout =>
    with? (Numeral.readUnsigned? 64 text) fun n => { raw with requestTimeout := some (.ofNat n) }
  | .capacity =>
    with? (Numeral.readUnsigned? 64 text) fun n => { raw with capacity := some (.ofNat n) }

/-- Checks a flag: it has a value, it comes once, and the value makes sense. -/
def accept (progress : Progress) (flag : Flag) (value : Option String) : Except Stop Progress :=
  match value with
  | none => .error .missingValue
  | some text =>
    if flag ∈ progress.seen then .error .repeatedFlag
    else { progress with seen := flag :: progress.seen }.store flag text

/-- Checks the flag that is pending. -/
def settle (progress : Progress) : Except Stop Progress :=
  match progress.pending with
  | none => .ok progress
  | some (flag, value) => { progress with pending := none }.accept flag value

end Progress

/-- What an argument looks like. -/
inductive Shape where
  | long (name : String) (value : Option String)
  | short (letter : Char)
  | plain
  deriving DecidableEq, Repr

/-- The shape of an argument. -/
def Shape.of (argument : String) : Shape :=
  match argument.toList with
  | '-' :: '-' :: rest =>
    let (name, value) := Text.splitFirst '=' rest
    .long (String.ofList name) (value.map String.ofList)
  | '-' :: letter :: _ => .short letter
  | _ => .plain

/-- The words that may stand in place of a command. -/
def commandWords : List String := ["serve", "migrate", "help"]

/-- The command of a word. -/
def command? (word : String) : Option Command :=
  if word = "serve" then some .serve else if word = "migrate" then some .migrate else none

/-- How a request for help on commands ends. No command has commands of its own. -/
def helpOn : List String → Stop
  | [] => .help
  | [word] => if word ∈ commandWords then .help else .unknownCommand
  | _ => .unknownCommand

/-- How an argument is refused that is neither a flag nor a value. -/
def surplus (command : Option Command) (escaped : Bool) (argument : String) : Stop :=
  if command.isSome then .unknownArgument
  else if escaped && commandWords.contains argument then .unknownArgument
  else .unknownCommand

/-- The request that a flag without a value makes. The version is told only in front of commands. -/
def request? (command : Option Command) (isHelp isVersion : Bool) : Option Stop :=
  if isHelp then some .help
  else if isVersion && command.isNone then some .version
  else none

/-- How reading ends at a request: a mistake of the flag in front of it comes first. -/
def Progress.answer (progress : Progress) (request : Stop) : Stop :=
  match progress.settle with
  | .ok _ => request
  | .error stop => stop

/-- Takes a flag, with its value if that is written behind an equals sign. -/
def Progress.takeLong (progress : Progress) (command : Option Command) (name : String)
    (value : Option String) : Except Stop Progress :=
  match request? command (name == "help") (name == "version"), Flag.ofName? command name with
  | some request, _ => .error (if value.isSome then .needlessValue else progress.answer request)
  | none, none => .error .unknownArgument
  | none, some flag => do
    let settled ← progress.settle
    match value with
    | none => return { settled with pending := some (flag, none) }
    | some text => settled.accept flag (some text)

/-- Takes an argument that is no command. -/
def Progress.take (progress : Progress) (command : Option Command) (argument : String) :
    Except Stop Progress :=
  match Shape.of argument with
  | .long name value => progress.takeLong command name value
  | .short letter =>
    match request? command (letter == 'h') (letter == 'V') with
    | some request => .error (progress.answer request)
    | none => .error .unknownArgument
  | .plain =>
    match progress.pending with
    | some (flag, none) => .ok { progress with pending := some (flag, some argument) }
    | _ => .error (surplus command false argument)

/-- What flags have said, and the command behind them with its arguments. -/
structure Reading where
  progress : Progress
  next : Option (Command × List String) := none
  deriving DecidableEq, Repr

/-- Reads the arguments of a command, or those in front of any command. Nothing may stand behind a
double dash. -/
def read (command : Option Command) (progress : Progress) : List String → Except Stop Reading
  | [] => .ok ⟨progress, none⟩
  | argument :: rest =>
    let mayName := command.isNone && !progress.waits
    if mayName && argument == "help" then .error (helpOn rest)
    else
      match if mayName then command? argument else none with
      | some next => .ok ⟨progress, some (next, rest)⟩
      | none =>
        if argument = "--" then
          match rest with
          | [] => .ok ⟨progress, none⟩
          | extra :: _ => .error (surplus command true extra)
        else
          match progress.take command argument with
          | .ok progress => read command progress rest
          | .error stop => .error stop

end CommandLine

/-- What a command line asks for. -/
structure Invocation where
  command : Option Command := none
  configFile : Option String := none
  overrides : Raw := {}
  deriving DecidableEq, Repr

namespace Invocation

/-- Reads a command line. `standIn` is the file of settings to take where the command line names
none. -/
def ofArguments (standIn : Option String) (arguments : List String) :
    Except CommandLine.Stop Invocation := do
  let front ← CommandLine.read none {} arguments
  let overrides ←
    match front.next with
    | none => pure {}
    | some (command, rest) =>
      let behind ← CommandLine.read (some command) {} rest
      let settled ← behind.progress.settle
      pure settled.overrides
  let settled ← front.progress.settle
  let configFile := settled.configFile.or standIn
  if configFile = some "" then throw .missingValue
  return { command := front.next.map (·.1), configFile, overrides }

end Invocation

end Catalogue.Settings
