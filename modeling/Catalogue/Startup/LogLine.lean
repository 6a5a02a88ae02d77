import Catalogue.Event
import Catalogue.Json.Write
import Catalogue.Settings.Basic

/-!
# Events as lines

An event is one line, without the time at which it happened.
-/

namespace Catalogue

/-- The text of a value. -/
def FieldValue.plain : FieldValue → List Char
  | .text value => value.toList
  | .number value => Numeral.ofInt value

/-- A value in JSON. -/
def FieldValue.json : FieldValue → List Char
  | .text value => Json.writeText value
  | .number value => Numeral.ofInt value

namespace Event

/-- An event in words: level, target, message, and the fields behind them. -/
def compactLine (event : Event) : String :=
  let fields := event.fields.map fun (key, value) =>
    " " ++ key ++ "=" ++ String.ofList value.plain
  s!"{event.level.name} {event.target}: {event.message}" ++ String.join fields

/-- An event as an object, in which the message is one of the fields. -/
def jsonLine (event : Event) : String :=
  let fields := ("message", Json.writeText event.message) ::
    event.fields.map fun (key, value) => (key, value.json)
  String.ofList (Json.writeObject
    [("level", Json.writeText event.level.name), ("fields", Json.writeObject fields),
     ("target", Json.writeText event.target)])

/-- An event in the form of a log. -/
def line (event : Event) : LogFormat → String
  | .json => event.jsonLine
  | .compact => event.compactLine

end Event

end Catalogue
