import Catalogue.Settings.Verbosity
import Catalogue.Text.Blank
import Catalogue.Text.Reader

/-!
# Which events are logged

A filter is a list of directives. Each names a level, and may name what the targets begin with that
it is about. Of the directives about a target the most specific one decides; a target that no
directive is about is not logged. Pieces that are no directives are left out.
-/

namespace Catalogue

/-- Logs the targets with some front up to some level. -/
structure Directive where
  front : List Char
  verbosity : Verbosity
  deriving DecidableEq, Repr

/-- A list of directives. -/
abbrev LogFilter := List Directive

namespace LogFilter

/-- Whether a directive may begin with a character. -/
def opensDirective (c : Char) : Bool := c.isAlphanum || c = '-' || c = ':' || c = '_'

/-- Reads a directive. A target without a level is logged altogether. -/
def directive? (text : List Char) : Option Directive :=
  match text with
  | [] => none
  | c :: _ =>
    if opensDirective c then
      match Text.splitFirst '=' text with
      | (word, none) =>
        match Verbosity.read? (String.ofList word) with
        | some verbosity => some ⟨[], verbosity⟩
        | none => some ⟨word, .upTo .trace⟩
      | (front, some []) => some ⟨front, .upTo .trace⟩
      | (front, some word) =>
        (Verbosity.read? (String.ofList word)).map fun verbosity => ⟨front, verbosity⟩
    else none

/-- The directives of a text, which has commas between them. -/
def read (text : String) : LogFilter :=
  (text.toList.splitOn ',').filterMap fun piece => directive? (Text.trimChars piece)

/-- The filter of a text, or that of a level alone if the text has no directives. -/
def ofText (text : Option String) (verbosity : Verbosity) : LogFilter :=
  match read (text.getD "") with
  | [] => [⟨[], verbosity⟩]
  | directives => directives

/-- The directive that decides about a target: the last one with the longest front. -/
def deciding? (filter : LogFilter) (target : String) : Option Directive :=
  let about := filter.filter fun d => d.front.isPrefixOf target.toList
  about.foldl
    (fun best d =>
      match best with
      | some b => if d.front.length < b.front.length then some b else some d
      | none => some d)
    none

/-- Whether an event of a level and a target is logged. -/
def allows (filter : LogFilter) (level : Level) (target : String) : Bool :=
  (filter.deciding? target).any fun d => d.verbosity.allows level

end LogFilter

end Catalogue
