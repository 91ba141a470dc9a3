namespace AccountCache

/-- Members with names, in the order in which they came. -/
abbrev Members (α : Type) := List (String × α)

namespace Members

variable {α : Type}

def find? (ms : Members α) (name : String) : Option α := (List.find? (·.1 == name) ms).map (·.2)

/-- Puts a member in the place of the one of its name, or else
at the end. -/
def put (ms : Members α) (name : String) (a : α) : Members α :=
  if ms.any (·.1 == name) then ms.map fun m => if m.1 == name then (name, a) else m
  else ms ++ [(name, a)]

end Members

end AccountCache
