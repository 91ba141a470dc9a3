import AccountCache.Accounts.CacheAside
import AccountCache.Redis.Pool

namespace AccountCache

namespace Settings

structure Logging where
  level : String := "info"
deriving DecidableEq

structure Redis where
  /-- Keep entries and locks on a server, and not in this process. -/
  enabled : Bool := false
  url : String := "redis://localhost:6379"
  lockUrl : Option String := none
  poolSize : Nat := 10
  timeoutMs : Nat := 5000
deriving DecidableEq

structure Cache where
  disabled : Bool := false
  defaultTtlSecs : Nat := 10
  nilTtlSecs : Nat := 300
  lockDurationMs : Nat := 60000
  lockMaxTries : Nat := 1
  waitBudgetMs : Nat := 15000
deriving DecidableEq

structure Login where
  maxAttempts : Int := 3
  lockTtlSecs : Nat := 300
deriving DecidableEq

end Settings

structure Settings where
  logging : Settings.Logging := {}
  redis : Settings.Redis := {}
  cache : Settings.Cache := {}
  login : Settings.Login := {}
deriving DecidableEq

namespace Settings

instance : Inhabited Settings := ⟨{}⟩

def logLevels : List String := ["trace", "debug", "info", "warn", "error", "off"]

/-- A list of texts, each in quotes. -/
def quotedList (texts : List String) : String := "[" ++ ", ".intercalate (texts.map quoted) ++ "]"

def Logging.problem? (l : Logging) : Option String :=
  if logLevels.contains (l.level.map Char.toLower) then none
  else some ("logging.level must be one of " ++ quotedList logLevels)

def Redis.problem? (r : Redis) : Option String :=
  if !r.enabled then none
  else if r.url.isEmpty then some "redis.enabled=true requires redis.url"
  else if r.poolSize = 0 then some "redis.pool_size must be > 0"
  else if r.timeoutMs = 0 then some "redis.timeout_ms must be > 0"
  else none

def Cache.problem? (c : Cache) : Option String :=
  if c.defaultTtlSecs = 0 then some "cache.default_ttl_secs must be > 0"
  else if c.nilTtlSecs = 0 then some "cache.nil_ttl_secs must be > 0"
  else if c.lockDurationMs = 0 then some "cache.lock_duration_ms must be > 0"
  else if c.lockMaxTries = 0 then some "cache.lock_max_tries must be > 0"
  else if c.waitBudgetMs = 0 then some "cache.wait_budget_ms must be > 0"
  else none

/-- A negative limit is one that every login has reached. -/
def Login.problem? (l : Login) : Option String :=
  if l.maxAttempts = 0 then some "login.max_attempts must be > 0"
  else if l.lockTtlSecs = 0 then some "login.lock_ttl_secs must be > 0"
  else none

/-- The first thing that makes settings unusable. Of several a user gets to
see only this one. -/
def problem? (s : Settings) : Option String :=
  s.logging.problem? <|> s.redis.problem? <|> s.cache.problem? <|> s.login.problem?

def Cache.policy (c : Cache) : AccountCache.Cache.Policy where
  defaultTtl := .ofSeconds c.defaultTtlSecs
  nilTtl := .ofSeconds c.nilTtlSecs
  lockDuration := .ofMillis c.lockDurationMs
  lockTries := c.lockMaxTries
  waitBudget := .ofMillis c.waitBudgetMs
  disabled := c.disabled

def Login.policy (l : Login) : LoginPolicy := ⟨l.maxAttempts, .ofSeconds l.lockTtlSecs⟩

def Redis.poolFor (r : Redis) (url : String) : AccountCache.Redis.PoolConfig :=
  ⟨url, r.poolSize, .ofMillis r.timeoutMs⟩

def Redis.cachePool (r : Redis) : AccountCache.Redis.PoolConfig := r.poolFor r.url

def Redis.lockPool (r : Redis) : AccountCache.Redis.PoolConfig := r.poolFor (r.lockUrl.getD r.url)

/-- Whether the locks are on a server of their own. -/
def Redis.hasSeparateLocks (r : Redis) : Bool := r.lockUrl.any (· != r.url)

end Settings

end AccountCache
