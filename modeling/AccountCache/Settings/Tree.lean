import AccountCache.Binary64.Reader
import AccountCache.Members
import AccountCache.Text.Scan

namespace AccountCache

namespace Settings

/-- Settings before they have meaning: a tree of values that is put together
from several sources, a later one taking precedence value by value. -/
inductive Tree where
  | nil
  | boolean (b : Bool)
  | integer (n : Int)
  | float (x : Binary64)
  | text (s : String)
  | list (items : List Tree)
  | table (members : List (String × Tree))

namespace Tree

instance : Inhabited Tree := ⟨nil⟩

def members : Tree → Members Tree
  | table ms => ms
  | _ => []

def items : Tree → List Tree
  | list ts => ts
  | _ => []

mutual

/-- Puts a value in the place of another. A table keeps what is there and
the new one lacks. -/
def assign : Tree → Tree → Tree
  | table ms, old => table (assignMembers ms old.members)
  | new, _ => new

def assignMembers : List (String × Tree) → Members Tree → Members Tree
  | [], old => old
  | (name, new) :: rest, old =>
    assignMembers rest (old.put name (assign new ((old.find? name).getD nil)))

end

/-- One step of a path down a tree. A negative index counts from the end. -/
inductive Step where
  | member (name : String)
  | item (index : Int)

/-- The items of a list with at least one at an index, and the position
of that one. -/
def reach (ts : List Tree) (index : Int) : List Tree × Nat :=
  if 0 ≤ index then (ts ++ List.replicate (index.toNat + 1 - ts.length) nil, index.toNat)
  else (List.replicate (index.natAbs - ts.length) nil ++ ts, ts.length - index.natAbs)

/-- Changes the value at the end of a path. What is in the way of the path
is replaced. -/
def modifyAt (change : Tree → Tree) (t : Tree) : List Step → Tree
  | [] => change t
  | .member name :: path =>
    let inner := (t.members.find? name).getD nil
    table (t.members.put name (modifyAt change inner path))
  | .item index :: path =>
    let (ts, i) := reach t.items index
    list (ts.set i (modifyAt change (ts.getD i nil) path))

def isNameChar (c : Char) : Bool := c.isAlphanum || c == '_' || c == '-'

def nameStep : Scan Step := do
  let cs ← Scan.takeWhile isNameChar
  guard !cs.isEmpty
  return .member (String.ofList cs)

def indexStep : Scan Step := do
  Scan.skipWhile (fun c => c == ' ' || c == '\t')
  let cs ← Scan.takeWhile fun c => c == '-' || c.isDigit
  let n ← int64? (String.ofList cs)
  Scan.skipWhile (fun c => c == ' ' || c == '\t')
  Scan.expect ']'
  return .item n

def furtherSteps : Nat → Scan (List Step)
  | 0 => failure
  | rounds + 1 => do
    if ← Scan.isAtEnd then return []
    else
      let step ← if ← Scan.accept "." then nameStep
        else do
          Scan.expect '['
          indexStep
      return step :: (← furtherSteps rounds)

/-- The steps that a name stands for, such as `a.b[0]`. A name of another
form is one step. -/
def stepsOf (name : String) : List Step :=
  let path : Scan (List Step) := do return (← nameStep) :: (← furtherSteps (name.length + 1))
  (Scan.all? path name.toList).getD [.member name]

/-- Puts a value under a name that may be a path. -/
def set (t : Tree) (name : String) (new : Tree) : Tree := t.modifyAt (assign new) (stepsOf name)

/-- Puts the members of a source into a tree. -/
def setAll (t : Tree) (source : Members Tree) : Tree := source.foldl (fun t m => t.set m.1 m.2) t

end Tree

end Settings

end AccountCache
