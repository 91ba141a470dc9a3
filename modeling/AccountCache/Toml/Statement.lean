import AccountCache.Toml.Quoting
import AccountCache.Toml.Scalar
import AccountCache.Toml.Table

namespace AccountCache

namespace Toml

/-- A line of a document: a key with its value, or the header of a table. -/
inductive Statement where
  | pair (key : List String) (value : Value)
  | header (key : List String)
  /-- The header of one more table of an array of tables. -/
  | item (key : List String)

def skipComment : Scan Unit := do
  if ← Scan.accept "#" then Scan.skipWhile isPrintable

/-- Skips blanks, comments and line ends, by rounds. -/
def skipSpace : Nat → Scan Unit
  | 0 => return ()
  | rounds + 1 => do
    skipBlanks
    skipComment
    if ← acceptNewline then skipSpace rounds

def skipAllSpace : Scan Unit := do skipSpace ((← Scan.rest).length + 1)

/-- How deep arrays and tables in braces may nest. -/
def maxNesting : Nat := 80

mutual

/-- A value that nests no deeper than given. Whatever is inside of it is
read with one round less. -/
def value : Nat → Nat → Scan Value
  | _, 0 => failure
  | depth, rounds + 1 => do
    match ← string? with
    | some s => return .string s
    | none =>
      if ← Scan.accept "[" then
        guard (0 < depth)
        skipAllSpace
        return .array (← items (depth - 1) rounds)
      else if ← Scan.accept "\x7b" then
        guard (0 < depth)
        skipAllSpace
        let table ← Table.ofPairs? (← members (depth - 1) rounds)
        return table.toValue
      else scalar

/-- The items of an array and its end. -/
def items : Nat → Nat → Scan (List Value)
  | _, 0 => failure
  | depth, rounds + 1 => do
    if ← Scan.accept "]" then return []
    else
      let v ← value depth rounds
      skipAllSpace
      if ← Scan.accept "," then
        skipAllSpace
        return v :: (← items depth rounds)
      else
        Scan.expect ']'
        return [v]

def members : Nat → Nat → Scan (List (List String × Value))
  | _, 0 => failure
  | depth, rounds + 1 => do
    if ← Scan.accept "\x7d" then return []
    else
      let k ← key
      skipAllSpace
      Scan.expect '='
      skipAllSpace
      let v ← value depth rounds
      skipAllSpace
      if ← Scan.accept "," then
        skipAllSpace
        return (k, v) :: (← members depth rounds)
      else
        Scan.expect '\x7d'
        return [(k, v)]

end

def pair : Scan Statement := do
  let k ← key
  Scan.expect '='
  skipBlanks
  return .pair k (← value maxNesting ((← Scan.rest).length + 1))

/-- A line without blanks in front, and without its end. -/
def statement : Scan Statement := do
  if ← Scan.accept "[[" then
    let k ← key
    guard (← Scan.accept "]]")
    return .item k
  else if ← Scan.accept "[" then
    let k ← key
    Scan.expect ']'
    return .header k
  else pair

/-- The lines of a document, by rounds. -/
def statements : Nat → Scan (List Statement)
  | 0 => failure
  | rounds + 1 => do
    skipAllSpace
    if ← Scan.isAtEnd then return []
    else
      let s ← statement
      skipBlanks
      skipComment
      guard ((← Scan.isAtEnd) || (← acceptNewline))
      return s :: (← statements rounds)

/-- A document, in front of which a byte order mark may stand. -/
def document : Scan (List Statement) := do
  let _ ← Scan.accept "\ufeff"
  statements ((← Scan.rest).length + 1)

def statements? (text : String) : Option (List Statement) := Scan.all? document text.toList

end Toml

end AccountCache
