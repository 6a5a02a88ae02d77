import Catalogue.Event
import Catalogue.Text.Numeral

/-!
# How much is logged

Logging is off, or on up to some level. A level is named by its word in any case or by its number,
and the empty text names the gravest level.
-/

namespace Catalogue

/-- The least grave level that is logged, if any level is. -/
inductive Verbosity where
  | off
  | upTo (level : Level)
  deriving DecidableEq, Repr

/-- How grave a level is: the gravest has rank one. -/
def Level.rank : Level → Nat
  | .error => 1
  | .warn => 2
  | .info => 3
  | .debug => 4
  | .trace => 5

namespace Verbosity

/-- All settings, from silence on. -/
def all : List Verbosity :=
  [.off, .upTo .error, .upTo .warn, .upTo .info, .upTo .debug, .upTo .trace]

/-- The word for a setting. -/
def word : Verbosity → String
  | .off => "off"
  | .upTo .error => "error"
  | .upTo .warn => "warn"
  | .upTo .info => "info"
  | .upTo .debug => "debug"
  | .upTo .trace => "trace"

/-- Whether a level is logged. -/
def allows : Verbosity → Level → Bool
  | .off, _ => false
  | .upTo bound, level => level.rank ≤ bound.rank

/-- Reads a setting. -/
def read? (text : String) : Option Verbosity :=
  let byNumber := (Numeral.readUnsigned? 64 text).bind fun n => all[n]?
  byNumber.or <|
    if text = "" then some (.upTo .error) else all.find? fun v => v.word == text.toLower

/-- What a text that names no level is refused with. -/
def refusal : String :=
  "error parsing level filter: expected one of \"off\", \"error\", \"warn\", \"info\", " ++
    "\"debug\", \"trace\", or a number 0-5"

end Verbosity

end Catalogue
