import AccountCache.Environment.Assignment
import AccountCache.Environment.Line
import AccountCache.Members
import AccountCache.SortedMap

namespace AccountCache

/-- Environment variables in the order in which they were set. Files may add
to them, but never change a variable that is there. -/
abbrev Environment := Members String

namespace Environment

/-- The environment in which a process starts, sorted by name. -/
def initial (entries : List (String × String)) : Environment := (SortedMap.ofList entries).entries

def look (e : Environment) (name : String) : String := (Members.find? e name).getD ""

/-- Sets a variable, unless it is set already: what a process was started
with has precedence over its files. -/
def addMissing (e : Environment) (name value : String) : Environment :=
  if (Members.find? e name).isSome then e else e ++ [(name, value)]

/-- Adds the assignments of lines, up to the first that makes no sense. What
stands after that line is lost, and what stands before it is kept. -/
def addLines (e : Environment) : List (List Char) → Environment
  | [] => e
  | line :: rest =>
    match assignment? e.look line with
    | none => e
    | some none => addLines e rest
    | some (some (name, value)) => addLines (e.addMissing name value) rest

def withoutMark (text : String) : String :=
  match text.toList with
  | '\ufeff' :: cs => String.ofList cs
  | _ => text

/-- Adds what an environment file sets. -/
def addFile (e : Environment) (text : String) : Environment :=
  e.addLines (linesOf (withoutMark text))

end Environment

end AccountCache
