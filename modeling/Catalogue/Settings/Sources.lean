import Catalogue.Settings.Basic
import Catalogue.Settings.CommandLine
import Catalogue.Settings.FromJson
import Catalogue.Settings.Toml.Document

/-!
# Where settings come from

Two files are read if they are there: the defaults and the local settings. Then comes the file that
was asked for, which has to be there, then the environment, and last the command line. Each source
is laid over those in front of it.
-/

namespace Catalogue.Settings

/-- The formats of files. -/
inductive FileFormat where
  | toml
  | json
  deriving DecidableEq, Repr

namespace FileFormat

/-- The formats in the order in which they are looked for. -/
def all : List FileFormat := [.toml, .json]

/-- What the names of files of a format end with, behind a dot. -/
def extension : FileFormat → String
  | .toml => "toml"
  | .json => "json"

/-- Reads a file. -/
def read? : FileFormat → String → Option (List (String × Tree))
  | .toml => Tree.entriesOfToml?
  | .json => Tree.entriesOfJson?

/-- The format that the name of a file tells. -/
def ofPath? (path : String) : Option FileFormat :=
  all.find? fun format =>
    let file := (path.toList.reverse.takeWhile (· ≠ '/')).reverse
    let ending := '.' :: format.extension.toList
    ending.length < file.length && ending.isSuffixOf file

end FileFormat

/-- A path without the parts that lead nowhere. -/
def plainPath (path : String) : String :=
  let parts := (path.toList.splitOn '/').map String.ofList
  let kept := parts.foldl
    (fun kept part =>
      if part = "" ∨ part = "." then kept
      else if part = ".." then kept.drop 1
      else part :: kept)
    []
  (if path.startsWith "/" then "/" else "") ++ "/".intercalate kept.reverse

/-- What settings are read from: files by path and variables by name. -/
structure Sources where
  files : List (String × String) := []
  environment : List (String × String) := []
  deriving DecidableEq, Repr

namespace Sources

/-- The file with the defaults, and the file with local settings. -/
def standardFiles : List String := ["config/default", "products"]

/-- The paths under which a file may be found: its name as it stands, and with each ending. -/
def pathsOf (name : String) : List String :=
  name :: FileFormat.all.map fun format => name ++ "." ++ format.extension

/-- The contents of a file. -/
def contents? (sources : Sources) (path : String) : Option String :=
  sources.files.lookup (plainPath path)

/-- The file that a name stands for, with its format. A file of that very name has to tell its
format; only where there is none the endings are tried. -/
def locate? (sources : Sources) (name : String) : Option (FileFormat × String) :=
  match sources.contents? name with
  | some text => (FileFormat.ofPath? name).map fun format => (format, text)
  | none =>
    FileFormat.all.findSome? fun format =>
      (sources.contents? (name ++ "." ++ format.extension)).map fun text => (format, text)

/-- A text without the mark of byte order that it may begin with. -/
def dropMark (text : String) : String :=
  match text.toList with
  | '\uFEFF' :: rest => String.ofList rest
  | _ => text

/-- The entries of a file. One that is not there has none, unless it has to be there. -/
def entries? (sources : Sources) (required : Bool) (name : String) :
    Option (List (String × Tree)) :=
  match sources.locate? name with
  | some (format, text) => format.read? (dropMark text)
  | none => if required then none else some []

/-- What the names of variables with settings begin with, in any case. -/
def variableMark : List Char := "products__".toList

/-- A name with points in place of the double underscores, from the front on. -/
def pointed : List Char → List Char
  | '_' :: '_' :: rest => '.' :: pointed rest
  | c :: rest => c :: pointed rest
  | [] => []

/-- The entry of a variable, if it is about settings. -/
def entryOf? (name value : String) : Option (String × Tree) :=
  let key := name.toLower.toList
  if variableMark.isPrefixOf key then
    some (String.ofList (pointed (key.drop variableMark.length)), .text value)
  else none

/-- The variable that names the file of settings. -/
def configFileVariable : String := "PRODUCTS_CONFIG_FILE"

/-- The tree of all sources, where `configFile` has to be there. -/
def tree? (sources : Sources) (configFile : Option String) : Option Tree := do
  let standard ← standardFiles.mapM (sources.entries? false)
  let named ← configFile.toList.mapM (sources.entries? true)
  let assigned := sources.environment.filterMap fun (name, value) => entryOf? name value
  return (standard ++ named ++ [assigned]).foldl Tree.withSource (.table [])

end Sources

/-- Reads a command line in front of the sources. -/
def Invocation.read (sources : Sources) (arguments : List String) :
    Except CommandLine.Stop Invocation :=
  Invocation.ofArguments (sources.environment.lookup Sources.configFileVariable) arguments

/-- The settings that an invocation runs with. -/
def load (sources : Sources) (invocation : Invocation) : Except LoadError Settings :=
  match (sources.tree? invocation.configFile).bind Raw.ofTree? with
  | none => .error .build
  | some raw =>
    match ofRaw (invocation.overrides.orElse raw) with
    | .ok settings => .ok settings
    | .error violation => .error (.invalid violation)

end Catalogue.Settings
