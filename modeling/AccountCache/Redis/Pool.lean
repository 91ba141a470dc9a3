import AccountCache.Redis.Address

namespace AccountCache

namespace Redis

structure PoolConfig where
  url : String
  size : Nat := 10
  /-- How long to wait for a connection, to open one, and to
  look after one. -/
  timeout : Duration := .ofSeconds 5
deriving DecidableEq

/-- A pool whose settings are in order. Its connections are opened when they
are first used, so that no server has to be reachable to build it. -/
structure Pool where
  maxSize : Nat
  timeout : Duration
deriving DecidableEq

def PoolConfig.open (c : PoolConfig) : Except Cache.Error Pool := do
  checkAddress c.url
  if c.size = 0 then throw (.invalidConfig "redis pool_size must be > 0")
  return ⟨c.size, c.timeout⟩

end Redis

end AccountCache
