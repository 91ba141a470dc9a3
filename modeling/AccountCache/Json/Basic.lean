namespace AccountCache

namespace Json

/-- A number as it is written. What it means is up to whoever reads it,
because not every reader rounds it alike. -/
structure Number where
  negative : Bool
  whole : Nat
  /-- The digits after the point. -/
  fraction : List Char
  exponent : Option Int
deriving DecidableEq

namespace Number

def ofInt (n : Int) : Number := ⟨n < 0, n.natAbs, [], none⟩

def isPlain (n : Number) : Bool := n.fraction.isEmpty && n.exponent.isNone

/-- The integer of a number written without fraction and exponent; minus
zero is none. -/
def int? (n : Number) : Option Int :=
  if !n.isPlain || (n.negative && n.whole == 0) then none
  else some (if n.negative then -(n.whole : Int) else n.whole)

end Number

end Json

/-- A JSON value. A string is `none` if what it denotes is not Unicode text,
because of an unpaired surrogate or stray bytes; such a string may stand
where nobody uses it. -/
inductive Json where
  | null
  | bool (b : Bool)
  | number (n : Json.Number)
  | string (text : Option String)
  | array (items : List Json)
  | object (members : List (Option String × Json))

namespace Json

instance : Inhabited Json := ⟨null⟩

def ofText (s : String) : Json := .string (some s)

def ofInt (n : Int) : Json := .number (.ofInt n)

/-- An object with the given members in their order. -/
def ofMembers (members : List (String × Json)) : Json :=
  .object (members.map fun m => (some m.1, m.2))

end Json

end AccountCache
