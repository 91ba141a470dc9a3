import AccountCache.Json.Basic
import AccountCache.Text.Integer

namespace AccountCache

namespace Json

def text? : Json → Option String
  | .string s => s
  | _ => none

def bool? : Json → Option Bool
  | .bool b => some b
  | _ => none

/-- An integer, which has to be written as one: neither `1.0` nor
`1e3` counts. -/
def int? : Json → Option Int
  | .number n => n.int?
  | _ => none

def int64? (j : Json) : Option Int := j.int?.filter fun n => minInt64 ≤ n && n ≤ maxInt64

/-- A natural number up to a bound, written as an integer. -/
def natUpTo? (bound : Nat) (j : Json) : Option Nat :=
  j.int?.bind fun n => if 0 ≤ n && n ≤ bound then some n.toNat else none

def nat64? : Json → Option Nat := natUpTo? maxNat64

def nat32? : Json → Option Nat := natUpTo? 4294967295

/-- The value under a name in the members of an object; a second one
is an error. -/
def field? (members : List (Option String × Json)) (name : String) : Option (Option Json) :=
  match members.filter fun m => m.1 == some name with
  | [] => some none
  | [m] => some (some m.2)
  | _ => none

/-- The fields of a record by their names in order, `none` for one that is
missing. A record is an object, of which unknown keys are ignored, or the
array of its fields. -/
def fields? (names : List String) : Json → Option (List (Option Json))
  | .object members =>
    if members.all fun m => m.1.isSome then names.mapM (field? members) else none
  | .array items =>
    if items.length ≤ names.length then
      some (items.map some ++ List.replicate (names.length - items.length) none)
    else none
  | _ => none

def required {α : Type} (read : Json → Option α) (field : Option Json) : Option α := field.bind read

def defaulting {α : Type} (value : α) (read : Json → Option α) : Option Json → Option α
  | none => some value
  | some j => read j

end Json

end AccountCache
