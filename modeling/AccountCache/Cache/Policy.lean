import AccountCache.Cache.Error

namespace AccountCache

namespace Cache

/-- How a cache manager treats entries and locks, by default as
given here. -/
structure Policy where
  /-- Lifetime of items that bring none of their own. -/
  defaultTtl : Duration := .ofSeconds 10
  /-- Lifetime of the mark for a missing row. -/
  nilTtl : Duration := .ofSeconds 300
  /-- Expiry of a lock, after which a crashed owner blocks nobody. -/
  lockDuration : Duration := .ofSeconds 60
  /-- Attempts at a lock, one right after the other. -/
  lockTries : Nat := 1
  waitBudget : Duration := .ofSeconds 15
  /-- Whether every operation is to do nothing, so that all callers read
  the source. -/
  disabled : Bool := false
deriving DecidableEq

namespace Policy

instance : Inhabited Policy := ⟨{}⟩

/-- The first setting that no store can honour. Lifetimes are kept in whole
seconds, and lock expiries in whole milliseconds. -/
def problem? (p : Policy) : Option Error :=
  if p.defaultTtl.seconds = 0 then some (.invalidConfig "default_ttl must be >= 1s")
  else if p.nilTtl.seconds = 0 then some (.invalidConfig "nil_ttl must be >= 1s")
  else if p.lockDuration.millis = 0 then some (.invalidConfig "lock_duration must be >= 1ms")
  else if p.lockTries = 0 then some (.invalidConfig "lock_max_tries must be > 0")
  else none

end Policy

end Cache

end AccountCache
