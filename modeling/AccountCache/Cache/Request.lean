import AccountCache.Cache.Error
import AccountCache.Cache.Item
import AccountCache.Key

namespace AccountCache

namespace Cache

/-- Proof that its holder may recompute a key. The token tells holders
apart, so that who comes too late does not give back the lock of another. -/
structure Lock where
  cacheKey : String
  token : String
  expiry : Duration
deriving DecidableEq

def Lock.key (l : Lock) : String := Key.lock l.cacheKey

/-- What a cache asks of the store that keeps its entries and of the locks
that guard them. A request that names a key names that of the entry, also
where it is about the lock. -/
inductive Request where
  | get (key : String)
  | set (entry : Entry)
  /-- Writes all entries or none. -/
  | setMany (entries : List Entry)
  | delete (keys : List String)
  | increment (key : String)
  | expire (key : String) (ttl : Duration)
  /-- The seconds left, -1 for a key without end, -2 for a missing key. -/
  | ttl (key : String)
  /-- Takes the lock of a key, unless another holds it. -/
  | acquire (cacheKey : String) (expiry : Duration) (tries : Nat)
  /-- Gives a lock back, if its token still holds it. -/
  | release (lock : Lock)
  | isHeld (cacheKey : String)
deriving DecidableEq

abbrev Request.Result : Request → Type
  | get _ => Option Bytes
  | set _ => Unit
  | setMany _ => Unit
  | delete _ => Unit
  | increment _ => Int
  | expire .. => Bool
  | ttl _ => Int
  | acquire .. => Option Lock
  | release _ => Bool
  | isHeld _ => Bool

/-- Whether a request is one about locks. -/
def Request.isAboutLocks : Request → Bool
  | acquire .. | release _ | isHeld _ => true
  | _ => false

end Cache

end AccountCache
