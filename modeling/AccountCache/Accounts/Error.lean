import AccountCache.Cache.Error
import AccountCache.Database.Request

namespace AccountCache

namespace Accounts

/-- What can go wrong in an operation on accounts: with the database, with
the cache, or with what is cached. -/
inductive Error where
  | database (e : Database.Error)
  | cache (e : Cache.Error)
  /-- The entry under a key is no value of the type that is kept there. -/
  | corrupt (key : String)
  /-- A value has no written form. -/
  | serialization
deriving DecidableEq

namespace Error

def message : Error → String
  | database e => e.message
  | cache e => "cache error: " ++ e.message
  | corrupt key => "corrupt cache entry " ++ key
  | serialization => "serialization error"

/-- Whether the operation gave up waiting for another caller. -/
def isBusy : Error → Bool
  | cache e => e.isWaitTooLong
  | _ => false

end Error

end Accounts

end AccountCache
