import AccountCache.Proofs.Faults.Tolerance

namespace AccountCache

namespace Accounts

/-- The operations, by what they yield: those that are to go on while the
cache fails, and the two that count failed logins in the cache itself. -/
inductive Service : Type → Type 1
  | job {α : Type} (job : Job α) : Service α
  | countLoginAttempt (address : String) : Service Int
  | isLoginLocked (address : String) : Service Bool

namespace Service

variable {α : Type}

def perform (a : Accounts) : Service α → Operation α
  | job j => j.perform a
  | countLoginAttempt address => a.countLoginAttempt address
  | isLoginLocked address => a.isLoginLocked address

def error? : Except Error α → Option Error
  | .ok _ => none
  | .error e => some e

/-- An operation of which only the error matters that it may end with. -/
def errand (a : Accounts) (service : Service α) : Action (Option Error) :=
  (service.perform a).run.bind fun outcome => .done (error? outcome)

end Service

end Accounts

end AccountCache
