import AccountCache.Json.Storable
import AccountCache.SortedMap

namespace AccountCache

/-- A grant: the role may perform the action on the resource. -/
structure Grant where
  role : String
  resource : String
  action : String
deriving DecidableEq

namespace Grant

def fieldNames : List String := ["role", "resource", "action"]

def toJson (g : Grant) : Json :=
  .ofMembers
    [("role", .ofText g.role), ("resource", .ofText g.resource), ("action", .ofText g.action)]

def ofJson? (j : Json) : Option Grant := do
  let [role, resource, action] ← j.fields? fieldNames | none
  return {
    role := ← Json.required Json.text? role
    resource := ← Json.required Json.text? resource
    action := ← Json.required Json.text? action }

instance : Storable Grant := ⟨fun g => some g.toJson, ofJson?⟩

end Grant

abbrev StringSet := SortedMap String Unit

/-- The snapshot of all grants: the actions that are granted, by role and
then by resource. It is built by adding grants, so no role and no resource
is in it without an action. -/
structure Permission where
  grants : SortedMap String (SortedMap String StringSet)
deriving DecidableEq

namespace Permission

def empty : Permission := ⟨.empty⟩

instance : Inhabited Permission := ⟨empty⟩

def add (p : Permission) (g : Grant) : Permission :=
  let resources := (p.grants.find? g.role).getD .empty
  let actions := (resources.find? g.resource).getD .empty
  ⟨p.grants.insert g.role (resources.insert g.resource (actions.insert g.action ()))⟩

def ofGrants (gs : List Grant) : Permission := gs.foldl add empty

def hasAccess (p : Permission) (role resource action : String) : Bool :=
  (((p.grants.find? role).bind (·.find? resource)).bind (·.find? action)).isSome

def isEmpty (p : Permission) : Bool := p.grants.isEmpty

def toJson (p : Permission) : Json :=
  .ofMembers <| p.grants.entries.map fun (role, resources) =>
    (role, .ofMembers <| resources.entries.map fun (resource, actions) =>
      (resource, .array (actions.keys.map .ofText)))

/-- A member of an object whose key is a text, its value read. A key that is
no text has no place in a map. -/
def member? {α : Type} (read : Json → Option α) (m : Option String × Json) :
    Option (String × α) := do
  return (← m.1, ← read m.2)

/-- The members of an object, each value read; of equal keys the
last counts. -/
def members? {α : Type} (read : Json → Option α) : Json → Option (SortedMap String α)
  | .object members => (members.mapM (member? read)).map SortedMap.ofList
  | _ => none

def texts? : Json → Option StringSet
  | .array items => (items.mapM Json.text?).map fun texts => .ofList (texts.map (·, ()))
  | _ => none

def ofJson? (j : Json) : Option Permission := (members? (members? texts?) j).map .mk

instance : Storable Permission := ⟨fun p => some p.toJson, ofJson?⟩

end Permission

end AccountCache
