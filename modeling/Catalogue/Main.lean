import Catalogue.Startup.Run

/-!
# The program

Hands command line, environment and files to the process, and shows what it has to show. There is no
database driver here, so no database is reachable.
-/

namespace Catalogue

/-- The variable of one piece of the environment. -/
def variableOf (piece : List UInt8) : Option (String × String) :=
  match Utf8.strict? piece with
  | none => none
  | some text =>
    match Text.splitFirst '=' text.toList with
    | (name, some value) => some (String.ofList name, String.ofList value)
    | (_, none) => none

/-- The environment of the process. -/
def readVariables : IO (List (String × String)) := do
  try
    let contents ← IO.FS.readBinFile "/proc/self/environ"
    return (contents.toList.splitOn 0).filterMap variableOf
  catch _ => return []

/-- A file, if it is there. -/
def readFile? (path : String) : IO (Option (String × String)) := do
  try
    let contents ← IO.FS.readBinFile path
    return some (Settings.plainPath path, Utf8.lossy contents.toList)
  catch _ => return none

end Catalogue

open Catalogue in
/-- Runs the program. -/
def main (arguments : List String) : IO UInt32 := do
  let environment ← readVariables
  let named :=
    match Settings.Invocation.read { environment } arguments with
    | .ok invocation => invocation.configFile.toList
    | .error _ => []
  let paths := (Settings.Sources.standardFiles ++ named).flatMap Settings.Sources.pathsOf
  let files ← paths.filterMapM readFile?
  let report := Startup.run { files, environment } arguments fun _ => .unreachable
  for text in report.usage do
    IO.println text
  for version in report.version do
    IO.println s!"{Startup.programName} {version}"
  for line in report.lines do
    IO.println line
  match report.status with
  | .exited code => return UInt32.ofNat code
  | .serving _ => return 0
