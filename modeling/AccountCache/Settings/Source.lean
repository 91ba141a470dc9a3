import AccountCache.Environment
import AccountCache.Json.Reader
import AccountCache.Settings.Tree
import AccountCache.Text.Integer
import AccountCache.Text.LowerCase
import AccountCache.Toml.Document

namespace AccountCache

namespace Settings

namespace Source

mutual

def ofToml : Toml.Value → Tree
  | .string s => .text s
  | .integer n => .integer n
  | .float x => .float x
  | .boolean b => .boolean b
  | .time s => .text s
  | .array items => .list (ofTomlItems items)
  | .table members => .table (ofTomlMembers members)

def ofTomlItems : List Toml.Value → List Tree
  | [] => []
  | item :: rest => ofToml item :: ofTomlItems rest

def ofTomlMembers : List (String × Toml.Value) → Members Tree
  | [] => []
  | (name, value) :: rest => (name, ofToml value) :: ofTomlMembers rest

end

/-- Appends digits to a number as long as 64 bits can hold it, and
counts them. -/
def appendDigits (n : Nat) : List Char → Nat × Nat
  | [] => (n, 0)
  | c :: cs =>
    let longer := 10 * n + (c.toNat - '0'.toNat)
    if longer ≤ maxNat64 then
      let (n, count) := appendDigits longer cs
      (n, count + 1)
    else (n, 0)

/-- Divides a number by a power of ten, 308 powers at a time. -/
def divide (x : Binary64) (power : Nat) : Nat → Option Binary64
  | 0 => x.scale? (-power)
  | times + 1 => if x.isZero then some x else do divide (← x.scale? (-308)) power times

/-- A JSON number as a floating-point number. Of the whole part and of the
fraction only the digits count that 64 bits can hold; a digit left out of
the whole part keeps its place, but the fraction follows right after the
ones kept. One beyond all finite numbers is none. -/
def float? (n : Json.Number) : Option Binary64 := do
  let whole := Nat.toDigits 10 n.whole
  let (digits, kept) := appendDigits 0 whole
  let (digits, places) := appendDigits digits n.fraction
  let x := Binary64.ofRatio n.negative digits 1
  let power := n.exponent.getD 0 + (whole.length - kept : Nat) - places
  if x.isZero then some x
  else if power < 0 then divide x (power.natAbs % 308) (power.natAbs / 308)
  else
    match ← x.scale? power with
    | .infinity _ => none
    | x => some x

/-- A number that is written as an integer is exact, as far as 64 bits with
or without a sign can hold it. -/
def ofNumber? (n : Json.Number) : Option Tree :=
  match n.int?.filter fun i => minInt64 ≤ i && i ≤ maxNat64 with
  | some i => some (.integer i)
  | none => (float? n).map .float

/-- How deep arrays and objects may be nested in a JSON file. -/
def maxDepth : Nat := 127

mutual

/-- A JSON value that is nested no deeper than given. Of equal names in an
object the last counts. -/
def ofJsonWithin? (depth : Nat) : Json → Option Tree
  | .null => some .nil
  | .bool b => some (.boolean b)
  | .number n => ofNumber? n
  | .string s => s.map .text
  | .array items => if depth = 0 then none else (ofJsonItems? (depth - 1) items).map .list
  | .object members =>
    if depth = 0 then none else (ofJsonMembers? (depth - 1) members []).map .table

def ofJsonItems? (depth : Nat) : List Json → Option (List Tree)
  | [] => some []
  | item :: rest => do
    let t ← ofJsonWithin? depth item
    return t :: (← ofJsonItems? depth rest)

def ofJsonMembers? (depth : Nat) :
    List (Option String × Json) → Members Tree → Option (Members Tree)
  | [], before => some before
  | (name, value) :: rest, before => do
    let t ← ofJsonWithin? depth value
    ofJsonMembers? depth rest (before.put (← name) t)

end

def ofJson? (j : Json) : Option Tree := ofJsonWithin? maxDepth j

def ofVariable (s : String) : Tree :=
  let word := s.map lowerCase
  if word = "true" then .boolean true
  else if word = "false" then .boolean false
  else
    match int64? s, Binary64.ofText? s with
    | some n, _ => .integer n
    | none, some x => .float x
    | none, none => .text s

/-- What comes before the names of settings in the names of variables. -/
def variableMark : List Char := "accountd__".toList

/-- A text with a dot in the place of each pair of underscores. -/
def dotted : List Char → List Char
  | '_' :: '_' :: cs => '.' :: dotted cs
  | c :: cs => c :: dotted cs
  | [] => []

/-- The setting that a variable of a name stands for. -/
def settingOf? (variable_ : String) : Option String :=
  let cs := variable_.toList.map lowerCase
  if variableMark.isPrefixOf cs then some (String.ofList (dotted (cs.drop variableMark.length)))
  else none

/-- The settings in an environment. Of variables that stand for the same one
the last counts, in the order of the environment. -/
def ofEnvironment (e : Environment) : Members Tree :=
  (e.filterMap fun m => (settingOf? m.1).map fun name => (name, ofVariable m.2)).foldl
    (fun ms m => ms.put m.1 m.2) []

end Source

end Settings

end AccountCache
