import AccountCache.Accounts.CacheAside

namespace AccountCache

namespace Accounts

variable (a : Accounts)

/-- How long the snapshot of all grants lives, one day: it changes seldom
and is read with every request. -/
def permissionTtl : Duration := .ofSeconds 86400

def fillPermission (p : Permission) : Action Unit := do
  match ← a.cache.store ⟨Key.permission, .ofText p.toJson.text, permissionTtl⟩ with
  | .ok _ => return ()
  | .error _ => Action.warn "failed to fill cache"

/-- The snapshot of all grants, from the cache or made anew from all rows.
Where the cache says that there is none it is empty. -/
def loadPermission : Operation Permission := do
  let found ← a.read Key.permission do
    let grants ← Operation.database .findGrants
    let p := Permission.ofGrants grants
    a.fillPermission p
    return some p
  return found.getD .empty

def createGrant (g : Grant) : Operation Unit := do
  Operation.database (.createGrant g)
  a.invalidate [Key.permission]

end Accounts

end AccountCache
