import AccountCache.Settings.Basic
import AccountCache.Settings.Tree
import AccountCache.Text.Integer
import AccountCache.Text.LowerCase

namespace AccountCache

namespace Settings

namespace Tree

/-- The words for true and false, in any case. -/
def wordValue? (s : String) : Option Bool :=
  let word := s.map lowerCase
  if word = "true" || word = "on" || word = "yes" then some true
  else if word = "false" || word = "off" || word = "no" then some false
  else none

def text? : Tree → Option String
  | text s => some s
  | boolean b => some (if b then "true" else "false")
  | integer n => some (toString n)
  | float x => some x.text
  | _ => none

def optionalText? : Tree → Option (Option String)
  | nil => some none
  | t => t.text?.map some

def bool? : Tree → Option Bool
  | boolean b => some b
  | integer n => some (n != 0)
  | float x => some !x.isZero
  | text s => if s = "1" then some true else if s = "0" then some false else wordValue? s
  | _ => none

/-- An integer between two bounds. A value need not be of the type that is
wanted, as long as it can be understood as one: a fraction is rounded, and a
word counts one or zero. -/
def intWithin? (read : String → Option Int) (low high : Int) : Tree → Option Int
  | boolean b => some (if b then 1 else 0)
  | integer n => if low ≤ n && n ≤ high then some n else none
  | float x => some (x.roundWithin low high)
  | text s =>
    match wordValue? s with
    | some b => some (if b then 1 else 0)
    | none => read s
  | _ => none

def int64? (t : Tree) : Option Int := t.intWithin? AccountCache.int64? minInt64 maxInt64

def nat64? (t : Tree) : Option Nat :=
  (t.intWithin? (fun s => (AccountCache.nat64? s).map Int.ofNat) 0 maxNat64).map Int.toNat

def nat32? (t : Tree) : Option Nat := t.nat64?.filter (· ≤ 4294967295)

/-- The fields of a record by their names: the members of a table, or the
items of a list in order. What is left over does not matter. -/
def fields? (names : List String) : Tree → Option (List (Option Tree))
  | table ms => some (names.map (Members.find? ms))
  | list ts => some (names.zipIdx.map fun n => ts[n.2]?)
  | _ => none

def defaulting {α : Type} (value : α) (read : Tree → Option α) : Option Tree → Option α
  | none => some value
  | some t => read t

end Tree

def Logging.ofTree? (t : Tree) : Option Logging := do
  let [level] ← t.fields? ["level"] | none
  let unset : Logging := {}
  return { level := ← Tree.defaulting unset.level Tree.text? level }

def Redis.ofTree? (t : Tree) : Option Redis := do
  let [enabled, url, lockUrl, poolSize, timeoutMs] ←
    t.fields? ["enabled", "url", "lock_url", "pool_size", "timeout_ms"] | none
  let unset : Redis := {}
  return {
    enabled := ← Tree.defaulting unset.enabled Tree.bool? enabled
    url := ← Tree.defaulting unset.url Tree.text? url
    lockUrl := ← Tree.defaulting unset.lockUrl Tree.optionalText? lockUrl
    poolSize := ← Tree.defaulting unset.poolSize Tree.nat64? poolSize
    timeoutMs := ← Tree.defaulting unset.timeoutMs Tree.nat64? timeoutMs }

def Cache.ofTree? (t : Tree) : Option Cache := do
  let [disabled, defaultTtlSecs, nilTtlSecs, lockDurationMs, lockMaxTries, waitBudgetMs] ←
    t.fields? ["disabled", "default_ttl_secs", "nil_ttl_secs", "lock_duration_ms", "lock_max_tries",
      "wait_budget_ms"] | none
  let unset : Cache := {}
  return {
    disabled := ← Tree.defaulting unset.disabled Tree.bool? disabled
    defaultTtlSecs := ← Tree.defaulting unset.defaultTtlSecs Tree.nat64? defaultTtlSecs
    nilTtlSecs := ← Tree.defaulting unset.nilTtlSecs Tree.nat64? nilTtlSecs
    lockDurationMs := ← Tree.defaulting unset.lockDurationMs Tree.nat64? lockDurationMs
    lockMaxTries := ← Tree.defaulting unset.lockMaxTries Tree.nat32? lockMaxTries
    waitBudgetMs := ← Tree.defaulting unset.waitBudgetMs Tree.nat64? waitBudgetMs }

def Login.ofTree? (t : Tree) : Option Login := do
  let [maxAttempts, lockTtlSecs] ← t.fields? ["max_attempts", "lock_ttl_secs"] | none
  let unset : Login := {}
  return {
    maxAttempts := ← Tree.defaulting unset.maxAttempts Tree.int64? maxAttempts
    lockTtlSecs := ← Tree.defaulting unset.lockTtlSecs Tree.nat64? lockTtlSecs }

def ofTree? (t : Tree) : Option Settings := do
  let [logging, redis, cache, login] ← t.fields? ["logging", "redis", "cache", "login"] | none
  return {
    logging := ← Tree.defaulting {} Logging.ofTree? logging
    redis := ← Tree.defaulting {} Redis.ofTree? redis
    cache := ← Tree.defaulting {} Cache.ofTree? cache
    login := ← Tree.defaulting {} Login.ofTree? login }

end Settings

end AccountCache
