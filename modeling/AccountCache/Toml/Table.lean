import AccountCache.Members
import AccountCache.Toml.Value

namespace AccountCache

namespace Toml

/-- How a table was made: by its header, by the header of a table inside
of it, or by keys with dots. Each way of making it limits what may be
added later. -/
inductive Origin where
  | header
  /-- By the header of a table inside of it. A header of its own may
  still follow. -/
  | implied
  | dotted
deriving DecidableEq

/-- What stands under a key while a document is read. -/
inductive Node where
  | value (v : Value)
  | table (origin : Origin) (members : List (String × Node))
  /-- An array of tables by headers, the last one first. -/
  | tables (last : List (String × Node)) (before : List (List (String × Node)))

/-- A table while a document is read, its members in order. -/
abbrev Table := Members Node

mutual

def Node.toValue : Node → Value
  | .value v => v
  | .table _ members => .table (membersToValues members)
  | .tables last before => .array (tablesToValues before [.table (membersToValues last)])

def membersToValues : List (String × Node) → List (String × Value)
  | [] => []
  | (key, node) :: rest => (key, node.toValue) :: membersToValues rest

/-- The values of tables, the last of which is first, in front of
other values. -/
def tablesToValues : List (List (String × Node)) → List Value → List Value
  | [], after => after
  | table :: before, after => tablesToValues before (.table (membersToValues table) :: after)

end

namespace Table

def toValue (t : Table) : Value := .table (membersToValues t)

/-- Changes the table at a path of headers. Tables that are missing are made
on the way; of an array of tables the last one counts. -/
def modifyAt (change : Table → Option Table) (t : Table) : List String → Option Table
  | [] => change t
  | key :: path =>
    match Members.find? t key with
    | none => (modifyAt change [] path).map fun inner => Members.put t key (.table .implied inner)
    | some (.table origin members) =>
      (modifyAt change members path).map fun inner => Members.put t key (.table origin inner)
    | some (.tables last before) =>
      (modifyAt change last path).map fun inner => Members.put t key (.tables inner before)
    | some (.value _) => none

/-- Adds a value under a key with dots. The tables on the way must not
have headers of their own; the last table of an array may be passed
through, but it takes no value. A table that takes a value in this way
gets no header any more. -/
def define (v : Value) (t : Table) : List String → Option Table
  | [] => none
  | [key] => if (Members.find? t key).isNone then some (Members.put t key (.value v)) else none
  | key :: path =>
    let takesValue := path.length = 1
    match Members.find? t key with
    | none => (define v [] path).map fun inner => Members.put t key (.table .dotted inner)
    | some (.table .header _) => none
    | some (.table origin members) =>
      (define v members path).map fun inner =>
        Members.put t key (.table (if takesValue then .dotted else origin) inner)
    | some (.tables last before) =>
      if takesValue then none
      else (define v last path).map fun inner => Members.put t key (.tables inner before)
    | some (.value _) => none

def addHeader (key : String) (t : Table) : Option Table :=
  match Members.find? t key with
  | none => some (Members.put t key (.table .header []))
  | some (.table .implied members) => some (Members.put t key (.table .header members))
  | some _ => none

def addItem (key : String) (t : Table) : Option Table :=
  match Members.find? t key with
  | none => some (Members.put t key (.tables [] []))
  | some (.tables last before) => some (Members.put t key (.tables [] (last :: before)))
  | some _ => none

/-- The table of a list of keys with dots and their values. -/
def ofPairs? (pairs : List (List String × Value)) : Option Table :=
  pairs.foldlM (fun t p => define p.2 t p.1) []

end Table

end Toml

end AccountCache
