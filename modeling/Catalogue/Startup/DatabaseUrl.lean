import Catalogue.Sql.DriverError
import Catalogue.Text.Reader

/-!
# URLs of databases

A URL begins with a scheme and a colon. If two slashes follow, they are followed by who connects, if
that is said, by a host and by a port, which is a number of 16 bits.
-/

namespace Catalogue.Startup

/-- What is wrong with a URL. -/
inductive UrlFlaw where
  | noScheme
  | badPort
  deriving DecidableEq, Repr

/-- The wording of a bad URL. -/
def UrlFlaw.message : UrlFlaw → String
  | .noScheme => "relative URL without a base"
  | .badPort => "invalid port number"

/-- The failure of the driver at a bad URL. -/
def UrlFlaw.error (flaw : UrlFlaw) : Sql.DriverError := .configuration flaw.message

/-- Whether a text may be a scheme. -/
def isScheme : List Char → Bool
  | [] => false
  | c :: rest => c.isAlpha && rest.all fun d => d.isAlphanum || d ∈ ['+', '-', '.']

/-- What stands between two slashes and the path of a URL. -/
def authority? (rest : List Char) : Option (List Char) :=
  match rest with
  | '/' :: '/' :: text => some (text.takeWhile fun c => c ∉ ['/', '?', '#'])
  | _ => none

/-- The host and the port, behind who connects. -/
def hostPortOf (authority : List Char) : List Char :=
  (authority.reverse.takeWhile (· ≠ '@')).reverse

/-- What follows a host: nothing, or a colon and a port. A host in brackets may have colons in it.
-/
def behindHost (text : List Char) : List Char :=
  match text with
  | '[' :: rest => (rest.dropWhile (· ≠ ']')).drop 1
  | text => text.dropWhile (· ≠ ':')

/-- Whether a port is missing, empty, or a number of 16 bits. -/
def isPort (digits : List Char) : Bool :=
  digits.all Char.isDigit && Numeral.ofDigits 10 (digits.filterMap Numeral.digit?) < 0x10000

/-- What is wrong with a URL, if anything is. -/
def urlFlaw? (url : String) : Option UrlFlaw :=
  match Text.splitFirst ':' url.toList with
  | (_, none) => some .noScheme
  | (scheme, some rest) =>
    if isScheme scheme then
      match authority? rest with
      | none => none
      | some authority =>
        if isPort ((behindHost (hostPortOf authority)).drop 1) then none else some .badPort
    else some .noScheme

end Catalogue.Startup
