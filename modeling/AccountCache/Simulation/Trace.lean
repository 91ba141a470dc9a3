import AccountCache.Effect

namespace AccountCache

namespace Simulation

inductive Call where
  | cache (r : Cache.Request)
  | database (r : Database.Request)
deriving DecidableEq

/-- What an operation did, seen from outside: calls in order, last first,
and warnings in the order in which they first came. -/
structure Trace where
  calls : List Call := []
  warnings : List String := []

namespace Trace

instance : Inhabited Trace := ⟨{}⟩

/-- Notes a call. How often somebody looks whether a lock is held is left to
chance, so looks in a row count once. -/
def addCall (t : Trace) (c : Call) : Trace :=
  match c with
  | .cache (.isHeld _) => if t.calls.head? = some c then t else { t with calls := c :: t.calls }
  | c => { t with calls := c :: t.calls }

def addWarning (t : Trace) (message : String) : Trace :=
  if message ∈ t.warnings then t else { t with warnings := t.warnings ++ [message] }

/-- Notes a request as it is answered. Calls to the database are noted when
they begin. -/
def add (t : Trace) : Effect → Trace
  | .cache r => t.addCall (.cache r)
  | .warn message => t.addWarning message
  | _ => t

end Trace

end Simulation

end AccountCache
