import AccountCache.Json.Storable
import AccountCache.Settings.Basic

namespace AccountCache

namespace Settings

def Logging.toJson (l : Logging) : Json := .ofMembers [("level", .ofText l.level)]

def Logging.ofJson? (j : Json) : Option Logging := do
  let [level] ← j.fields? ["level"] | none
  return { level := ← Json.defaulting "info" Json.text? level }

def Redis.toJson (r : Redis) : Json :=
  .ofMembers [
    ("enabled", .bool r.enabled), ("url", .ofText r.url),
    ("lock_url", (r.lockUrl.map Json.ofText).getD .null),
    ("pool_size", .ofInt r.poolSize), ("timeout_ms", .ofInt r.timeoutMs)]

/-- A text, or null for none. -/
def optionalText? : Json → Option (Option String)
  | .null => some none
  | j => j.text?.map some

def Redis.ofJson? (j : Json) : Option Redis := do
  let [enabled, url, lockUrl, poolSize, timeoutMs] ←
    j.fields? ["enabled", "url", "lock_url", "pool_size", "timeout_ms"] | none
  let unset : Redis := {}
  return {
    enabled := ← Json.defaulting unset.enabled Json.bool? enabled
    url := ← Json.defaulting unset.url Json.text? url
    lockUrl := ← Json.defaulting unset.lockUrl optionalText? lockUrl
    poolSize := ← Json.defaulting unset.poolSize Json.nat64? poolSize
    timeoutMs := ← Json.defaulting unset.timeoutMs Json.nat64? timeoutMs }

def Cache.toJson (c : Cache) : Json :=
  .ofMembers [
    ("disabled", .bool c.disabled), ("default_ttl_secs", .ofInt c.defaultTtlSecs),
    ("nil_ttl_secs", .ofInt c.nilTtlSecs), ("lock_duration_ms", .ofInt c.lockDurationMs),
    ("lock_max_tries", .ofInt c.lockMaxTries), ("wait_budget_ms", .ofInt c.waitBudgetMs)]

def Cache.ofJson? (j : Json) : Option Cache := do
  let [disabled, defaultTtlSecs, nilTtlSecs, lockDurationMs, lockMaxTries, waitBudgetMs] ←
    j.fields? ["disabled", "default_ttl_secs", "nil_ttl_secs", "lock_duration_ms", "lock_max_tries",
      "wait_budget_ms"] | none
  let unset : Cache := {}
  return {
    disabled := ← Json.defaulting unset.disabled Json.bool? disabled
    defaultTtlSecs := ← Json.defaulting unset.defaultTtlSecs Json.nat64? defaultTtlSecs
    nilTtlSecs := ← Json.defaulting unset.nilTtlSecs Json.nat64? nilTtlSecs
    lockDurationMs := ← Json.defaulting unset.lockDurationMs Json.nat64? lockDurationMs
    lockMaxTries := ← Json.defaulting unset.lockMaxTries Json.nat32? lockMaxTries
    waitBudgetMs := ← Json.defaulting unset.waitBudgetMs Json.nat64? waitBudgetMs }

def Login.toJson (l : Login) : Json :=
  .ofMembers [("max_attempts", .ofInt l.maxAttempts), ("lock_ttl_secs", .ofInt l.lockTtlSecs)]

def Login.ofJson? (j : Json) : Option Login := do
  let [maxAttempts, lockTtlSecs] ← j.fields? ["max_attempts", "lock_ttl_secs"] | none
  let unset : Login := {}
  return {
    maxAttempts := ← Json.defaulting unset.maxAttempts Json.int64? maxAttempts
    lockTtlSecs := ← Json.defaulting unset.lockTtlSecs Json.nat64? lockTtlSecs }

def toJson (s : Settings) : Json :=
  .ofMembers [
    ("logging", s.logging.toJson), ("redis", s.redis.toJson), ("cache", s.cache.toJson),
    ("login", s.login.toJson)]

def ofJson? (j : Json) : Option Settings := do
  let [logging, redis, cache, login] ← j.fields? ["logging", "redis", "cache", "login"] | none
  return {
    logging := ← Json.defaulting {} Logging.ofJson? logging
    redis := ← Json.defaulting {} Redis.ofJson? redis
    cache := ← Json.defaulting {} Cache.ofJson? cache
    login := ← Json.defaulting {} Login.ofJson? login }

instance : Storable Settings := ⟨fun s => some s.toJson, ofJson?⟩

end Settings

end AccountCache
