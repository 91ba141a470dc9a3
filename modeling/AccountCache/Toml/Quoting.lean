import AccountCache.Text.Hex
import AccountCache.Text.Scan

namespace AccountCache

namespace Toml

def isBlank (c : Char) : Bool := c == ' ' || c == '\t'

/-- Characters that may stand in comments and strings of one line. -/
def isPrintable (c : Char) : Bool := c == '\t' || (0x20 ≤ c.toNat && c.toNat != 0x7f)

def skipBlanks : Scan Unit := Scan.skipWhile isBlank

/-- Takes the end of a line, if it is next. -/
def newline? : Scan (Option (List Char)) := do
  if ← Scan.accept "\n" then return some ['\n']
  else if ← Scan.accept "\r\n" then return some ['\r', '\n']
  else return none

def acceptNewline : Scan Bool := do return (← newline?).isSome

/-- The character that some hexadecimal digits number. -/
def unicode (width : Nat) : Scan Char := do
  let n ← hexNumber? (← Scan.take width)
  guard n.isValidChar
  return Char.ofNat n

def escaped : Scan Char := do
  match ← Scan.next with
  | 'b' => return '\x08'
  | 't' => return '\t'
  | 'n' => return '\n'
  | 'f' => return '\x0c'
  | 'r' => return '\r'
  | 'e' => return '\x1b'
  | '"' => return '"'
  | '\\' => return '\\'
  | 'x' => unicode 2
  | 'u' => unicode 4
  | 'U' => unicode 8
  | _ => failure

/-- The rest of a string in double quotes on one line. Each round takes a
character at least, so the length of the text is enough of them. -/
def basicRest : Nat → Scan (List Char)
  | 0 => failure
  | rounds + 1 => do
    match ← Scan.next with
    | '"' => return []
    | '\\' => return (← escaped) :: (← basicRest rounds)
    | c =>
      guard (isPrintable c)
      return c :: (← basicRest rounds)

def basicString : Scan (List Char) := do basicRest (← Scan.rest).length

def literalString : Scan (List Char) := do
  let cs ← Scan.takeWhile fun c => c != '\'' && isPrintable c
  Scan.expect '\''
  return cs

/-- What ends a string of several lines: three quotes, and up to two more
that belong to it. -/
def closing (quote : Char) : Scan (Option (List Char)) := do
  let quotes := ((← Scan.rest).takeWhile (· == quote)).length
  if quotes < 3 then return none
  else
    let _ ← Scan.take (min quotes 5)
    return some (List.replicate (min quotes 5 - 3) quote)

/-- Skips the end of a line and all blanks and line ends after it. -/
def skipLines : Nat → Scan Unit
  | 0 => return ()
  | rounds + 1 => do
    skipBlanks
    if ← acceptNewline then skipLines rounds

/-- What follows a backslash in a string of several lines: nothing, if it
ends the line. -/
def escapedLine : Scan (List Char) := do
  let cs := (← Scan.rest).dropWhile isBlank
  if cs.head? == some '\n' || "\r\n".toList.isPrefixOf cs then
    skipLines cs.length
    return []
  else return [← escaped]

/-- The rest of a string of several lines, by rounds. The ends of its lines
belong to it. -/
def linesRest (quote : Char) (hasEscapes : Bool) : Nat → Scan (List Char)
  | 0 => failure
  | rounds + 1 => do
    match ← closing quote with
    | some cs => return cs
    | none =>
      match ← newline? with
      | some cs => return cs ++ (← linesRest quote hasEscapes rounds)
      | none =>
        let c ← Scan.next
        if hasEscapes && c == '\\' then
          return (← escapedLine) ++ (← linesRest quote hasEscapes rounds)
        else
          guard (isPrintable c)
          return c :: (← linesRest quote hasEscapes rounds)

/-- A string of several lines; a line end right after the quotes
does not count. -/
def linesString (quote : Char) (hasEscapes : Bool) : Scan (List Char) := do
  let _ ← acceptNewline
  linesRest quote hasEscapes (← Scan.rest).length

/-- A string, if one is next: in double quotes with escapes, or in
single quotes without them. Three quotes on each side let it go over
several lines. -/
def string? : Scan (Option String) := do
  if ← Scan.accept "\"\"\"" then return some (String.ofList (← linesString '"' true))
  else if ← Scan.accept "'''" then return some (String.ofList (← linesString '\'' false))
  else if ← Scan.accept "\"" then return some (String.ofList (← basicString))
  else if ← Scan.accept "'" then return some (String.ofList (← literalString))
  else return none

def isKeyChar (c : Char) : Bool := c.isAlphanum || c == '_' || c == '-'

/-- One part of a key. -/
def simpleKey : Scan String := do
  if ← Scan.accept "\"" then return String.ofList (← basicString)
  else if ← Scan.accept "'" then return String.ofList (← literalString)
  else
    let cs ← Scan.takeWhile isKeyChar
    guard !cs.isEmpty
    return String.ofList cs

/-- The parts of a key after the first, by rounds. -/
def keyRest : Nat → Scan (List String)
  | 0 => failure
  | rounds + 1 => do
    skipBlanks
    if ← Scan.accept "." then
      skipBlanks
      return (← simpleKey) :: (← keyRest rounds)
    else return []

/-- How many parts a key may have. -/
def maxKeyParts : Nat := 80

/-- A key: parts with dots between them. -/
def key : Scan (List String) := do
  skipBlanks
  let first ← simpleKey
  let further ← keyRest ((← Scan.rest).length + 1)
  guard (further.length < maxKeyParts)
  return first :: further

end Toml

end AccountCache
