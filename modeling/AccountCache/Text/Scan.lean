namespace AccountCache

/-- A reader takes characters from the front of a text, or fails. A
reader that fails leaves nothing behind, so that another may be tried on
the same text. -/
abbrev Scan := StateT (List Char) Option

namespace Scan

variable {α : Type}

def rest : Scan (List Char) := get

def next : Scan Char
  | c :: cs => some (c, cs)
  | [] => none

/-- Takes a given character, or fails. -/
def expect (c : Char) : Scan Unit := do guard ((← next) == c)

/-- Takes a given text if it is next, and tells whether it was. -/
def accept (s : String) : Scan Bool := do
  let cs ← get
  if s.toList.isPrefixOf cs then
    set (cs.drop s.length)
    return true
  else return false

/-- Takes the characters up to the first that does not belong. -/
def takeWhile (belongs : Char → Bool) : Scan (List Char) := do
  let cs ← get
  set (cs.dropWhile belongs)
  return cs.takeWhile belongs

def skipWhile (belongs : Char → Bool) : Scan Unit := discard <| takeWhile belongs

/-- Takes a given number of characters. -/
def take (n : Nat) : Scan (List Char) := do
  let cs ← get
  guard (n ≤ cs.length)
  set (cs.drop n)
  return cs.take n

def isAtEnd : Scan Bool := do return (← get).isEmpty

def all? (p : Scan α) (cs : List Char) : Option α :=
  match p cs with
  | some (a, []) => some a
  | _ => none

end Scan

end AccountCache
