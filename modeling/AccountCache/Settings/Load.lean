import AccountCache.Files
import AccountCache.Settings.Meaning
import AccountCache.Settings.Source

namespace AccountCache

namespace Settings

inductive LoadError where
  /-- A source cannot be read. -/
  | source
  /-- The sources can be read, but do not make settings. -/
  | meaning
  | unusable (reason : String)
deriving DecidableEq

def LoadError.message : LoadError → String
  | source => "config build error"
  | meaning => "config deserialize error"
  | unusable reason => reason

def defaultFile : String := "accountd.toml"

inductive Format where
  | toml
  | json
deriving DecidableEq

def Format.ending : Format → String
  | toml => ".toml"
  | json => ".json"

/-- The last dot of a file's name and what follows it. A dot in front
does not count. -/
def ending (name : String) : String :=
  let last := (name.toList.reverse.takeWhile (· != '.')).reverse
  if last.length + 1 < name.length then String.ofList ('.' :: last) else ""

def formats : List Format := [.toml, .json]

def formatOf? (name : String) : Option Format := formats.find? (·.ending == ending name)

/-- The settings in the text of a file. They have to be a table. -/
def ofFile? (format : Format) (text : String) : Option (Members Tree) := do
  let text := Environment.withoutMark text
  let tree ← match format with
    | .toml => (Toml.ofString? text).map Source.ofToml
    | .json => (Json.ofString? text).bind Source.ofJson?
  match tree with
  | .table members => some members
  | _ => none

/-- The file at a path and its format. Instead of a directory a file beside
it counts that has its name and the ending of a format. -/
def fileAt? (files : Files) (path : String) : Files.Entry → Option (Format × String)
  | .file name text => (formatOf? name).map (·, text)
  | .directory => formats.findSome? fun format => (files.beside? path format.ending).map (format, ·)

def fileSource (files : Files) (path : String) : Except LoadError (Members Tree) :=
  match files.entry? path with
  | none => .ok []
  | some entry =>
    match (fileAt? files path entry).bind fun (format, text) => ofFile? format text with
    | some members => .ok members
    | none => .error .source

/-- Loads settings from a file, if it is there, and from the environment,
whose values come last and therefore count. Without a path the file has its
usual name, and need not be there either. -/
def load (files : Files) (e : Environment) (path : Option String) :
    Except LoadError Settings := do
  let members ← fileSource files (path.getD defaultFile)
  let tree := ((Tree.table []).setAll members).setAll (Source.ofEnvironment e)
  match ofTree? tree with
  | none => throw .meaning
  | some s =>
    match s.problem? with
    | some reason => throw (.unusable reason)
    | none => return s

end Settings

end AccountCache
