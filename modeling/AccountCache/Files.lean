namespace AccountCache

/-- Texts of files, each by the names on the way to it from the working
directory. Directories are the ways to files: none is empty. -/
abbrev Files := List (List String × String)

namespace Files

/-- The steps of a path. The empty step and the dot stay where they are. -/
def steps (path : String) : List String := path.splitOn "/"

def staysHere (step : String) : Bool := step == "" || step == "."

def ofList (texts : List (String × String)) : Files :=
  (texts.map fun f => ((steps f.1).filter (!staysHere ·), f.2)).reverse

def text? (files : Files) (names : List String) : Option String :=
  (files.find? (·.1 == names)).map (·.2)

/-- Whether some names lead to a directory: to one that a file is in. -/
def hasDirectory (files : Files) (names : List String) : Bool :=
  files.any fun f => names.isPrefixOf f.1

/-- A directory: the working directory or one inside of it, by the names on
the way, or one above, where nothing else is known. -/
inductive Directory where
  | below (names : List String)
  | above

def Directory.parent : Directory → Directory
  | below [] => above
  | below names => below names.dropLast
  | above => above

inductive Entry where
  | file (name text : String)
  | directory

/-- What some steps lead to from a directory. Each step but the last has to
lead to a directory, also when the next one goes back up. -/
def walk (files : Files) (d : Directory) : List String → Option Entry
  | [] => some .directory
  | step :: path =>
    if staysHere step then walk files d path
    else if step == ".." then walk files d.parent path
    else
      match d with
      | .above => none
      | .below names =>
        let here := names ++ [step]
        match files.text? here with
        | some text => if path.isEmpty then some (.file step text) else none
        | none => if files.hasDirectory here then walk files (.below here) path else none

/-- Where a path starts: a slash in front leads out of the
working directory. -/
def start (path : String) : Directory :=
  if path.toList.head? == some '/' then .above else .below []

def maxPathBytes : Nat := 4095

/-- What a path leads to. The empty path leads nowhere. -/
def entry? (files : Files) (path : String) : Option Entry :=
  if path.isEmpty || maxPathBytes < path.utf8ByteSize then none
  else files.walk (start path) (steps path)

/-- The text of the file beside a directory that has the name of
the directory and an ending. The path of the directory has to end
with that name. -/
def beside? (files : Files) (path ending : String) : Option String := do
  let names := (steps path).filter (!staysHere ·)
  let name ← names.getLast?
  guard (name != "..")
  match files.walk (start path) (names.dropLast ++ [name ++ ending]) with
  | some (.file _ text) => some text
  | _ => none

end Files

end AccountCache
