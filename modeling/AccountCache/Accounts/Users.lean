import AccountCache.Accounts.CacheAside

namespace AccountCache

namespace Accounts

variable (a : Accounts)

/-- The keys under which something about a user may be cached: the user and
its password hash under the id, and the id under the email. -/
def userKeys (id : Uuid) (email : String) : List String :=
  [Key.user id, Key.email email, Key.password id]

def createUser (user : User) (hash : String) : Operation Unit := do
  Operation.database (.createUser user hash)
  a.invalidate (userKeys user.id user.email)

def findUser (id : Uuid) : Operation (Option User) :=
  a.read (Key.user id) do
    let found ← Operation.database (.findUser id)
    a.fillFound (Key.user id) found

/-- The id of the user with an email. It is cached on its own, so that a
user is kept once however it is found. -/
def findUserId (email : String) : Operation (Option Uuid) :=
  a.read (Key.email email) do
    let found ← Operation.database (.findUserByEmail email)
    a.fillFound (Key.email email) (found.map (·.id))

def findUserByEmail (email : String) : Operation (Option User) := do
  match ← a.findUserId email with
  | some id => a.findUser id
  | none => return none

/-- Changes a user and reads the row back. The database may change the email
on its way, so the keys of the email as it was given and as it was stored
are dropped. -/
def updateUser (user : User) : Operation (Option User) := do
  match ← Operation.database (.updateUser user) with
  | none => return none
  | some updated =>
    let keys := userKeys updated.id updated.email
    a.invalidate (if user.email = updated.email then keys else keys ++ [Key.email user.email])
    a.findUser updated.id

def deleteUser (id : Uuid) : Operation (Option User) := do
  let deleted ← Operation.database (.deleteUser id)
  a.invalidate <| match deleted with
    | some user => userKeys user.id user.email
    | none => [Key.user id, Key.password id]
  return deleted

def findPassword (id : Uuid) : Operation (Option String) :=
  a.read (Key.password id) do
    let found ← Operation.database (.findPassword id)
    a.fillFound (Key.password id) found

def updatePassword (id : Uuid) (hash : String) : Operation Unit := do
  Operation.database (.updatePassword id hash)
  a.invalidate [Key.password id, Key.user id]

/-- Counts a failed login, and starts the time of the lock anew. -/
def countLoginAttempt (email : String) : Operation Int := do
  let attempts ← Operation.cache (a.cache.increment (Key.loginAttempts email))
  Operation.cache (a.cache.expire (Key.loginAttempts email) a.login.lockTtl)
  return attempts

def attempts? : Option Cache.Cached → Option Int
  | some (.value bytes) => bytes.text?.bind int64?
  | _ => some 0

/-- Whether too many logins have failed, the last of them not long ago. -/
def isLoginLocked (email : String) : Operation Bool := do
  let key := Key.loginAttempts email
  if (← Operation.cache (a.cache.lifetime key)).isLive then
    match attempts? (← a.cache.get key) with
    | some attempts => return a.login.maxAttempts ≤ attempts
    | none => throw (.cache (.notAnInteger key))
  else return false

end Accounts

end AccountCache
