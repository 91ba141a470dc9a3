import AccountCache.Text.Blank
import AccountCache.Text.Letters
import AccountCache.Text.Scan

namespace AccountCache

namespace Environment

inductive Quote where
  | single
  | double
deriving DecidableEq

structure Reference where
  isBraced : Bool
  name : List Char

/-- A value that is being read, its characters so far last first. Outside of
single quotes a dollar sign with a name, which may be in braces, stands for
the value of another variable. -/
structure PartialValue where
  chars : List Char := []
  quote : Option Quote := none
  isEscaped : Bool := false
  reference : Option Reference := none
  /-- Whether the value has ended, and only a comment may follow. -/
  hasEnded : Bool := false

namespace PartialValue

def push (p : PartialValue) (c : Char) : PartialValue := { p with chars := c :: p.chars }

/-- Ends a reference: the value of the variable takes its place. -/
def resolve (p : PartialValue) (look : String → String) (r : Reference) : PartialValue :=
  let value := look (String.ofList r.name.reverse)
  { p with chars := value.toList.reverse ++ p.chars, reference := none }

/-- Reads a character of a reference. Without braces a name has letters and
numbers only. -/
def stepReference (p : PartialValue) (look : String → String) (r : Reference) (c : Char) :
    PartialValue :=
  if isLetterOrNumber c || (r.isBraced && c != '\x7d') then
    { p with reference := some { r with name := c :: r.name } }
  else if r.isBraced then p.resolve look r
  else if c == '\x7b' && r.name.isEmpty then { p with reference := some ⟨true, []⟩ }
  else
    let p := p.resolve look r
    if c == '$' then { p with reference := some ⟨false, []⟩ } else p.push c

/-- Reads a character after a backslash. -/
def stepEscape (p : PartialValue) (c : Char) : Option PartialValue :=
  let p := { p with isEscaped := false }
  if "\\'\"$ ".toList.contains c then some (p.push c)
  else if c == 'n' then some (p.push '\n')
  else none

/-- Reads a character that is in no reference, not escaped, and not in
single quotes. -/
def stepText (p : PartialValue) (c : Char) : PartialValue :=
  if c == '$' then { p with reference := some ⟨false, []⟩ }
  else if c == '\\' then { p with isEscaped := true }
  else if p.quote = some .double then
    if c == '"' then { p with quote := none } else p.push c
  else if c == '\'' then { p with quote := some .single }
  else if c == '"' then { p with quote := some .double }
  else if c == ' ' || c == '\t' then { p with hasEnded := true }
  else p.push c

/-- Reads a character of a value that has not ended. A value may have parts
in quotes, one right after another. -/
def step (p : PartialValue) (look : String → String) (c : Char) : Option PartialValue :=
  if p.isEscaped then p.stepEscape c
  else if p.quote = some .single then
    some (if c == '\'' then { p with quote := none } else p.push c)
  else
    match p.reference with
    | some r => some (p.stepReference look r c)
    | none => some (p.stepText c)

/-- The value, if nothing in it is open. -/
def finish (p : PartialValue) (look : String → String) : Option String :=
  match p.quote, p.reference with
  | some _, _ => none
  | none, some r =>
    if r.isBraced then none else some (String.ofList (p.resolve look r).chars.reverse)
  | none, none => some (String.ofList p.chars.reverse)

def read (p : PartialValue) (look : String → String) : List Char → Option String
  | [] => p.finish look
  | c :: cs =>
    if p.hasEnded then
      if c == '#' then p.finish look
      else if c == ' ' || c == '\t' then p.read look cs
      else none
    else (p.step look c).bind fun p => p.read look cs

end PartialValue

def skipBlanks : Scan Unit := Scan.skipWhile isBlank

/-- The name on the left of an assignment. -/
def name : Scan String := do
  guard ((← Scan.rest).head?.any fun c => c.isAlpha || c == '_')
  return String.ofList (← Scan.takeWhile fun c => c.isAlphanum || c == '_' || c == '.')

/-- The left side of an assignment and its equals sign. The word `export`
may stand in front, but it may be a name too. -/
def target : Scan String := do
  let first ← name
  skipBlanks
  if ← Scan.accept "=" then return first
  else
    guard (first == "export")
    let second ← name
    skipBlanks
    Scan.expect '='
    return second

/-- Reads a line such as `export NAME="value of ${OTHER}" # comment`:
nothing if it is empty, else a name and a value. -/
def assignment (look : String → String) : Scan (Option (String × String)) := do
  skipBlanks
  if (← Scan.rest).head?.all (· == '#') then return none
  else
    let name ← target
    skipBlanks
    let cs ← Scan.rest
    if cs.head?.all (· == '#') then return some (name, "")
    else
      let value ← PartialValue.read {} look cs
      return some (name, value)

/-- Reads a line; the outer nothing means that it makes no sense. -/
def assignment? (look : String → String) (line : List Char) : Option (Option (String × String)) :=
  (assignment look (trimEnd line)).map (·.1)

end Environment

end AccountCache
