import AccountCache.Accounts.Error
import AccountCache.Cache.Manager

namespace AccountCache

/-- How failed logins are counted: the limit, and how long a lock lasts
after the last failure. -/
structure LoginPolicy where
  maxAttempts : Int
  lockTtl : Duration
deriving DecidableEq

/-- Operations on accounts, over a cache beside the database. A read takes
the value from the cache, or else loads it while it holds the lock of its
key, fills the cache, and releases the lock. A write goes to the database
first and then drops every entry that could hold a copy. -/
structure Accounts where
  cache : Cache.Manager
  login : LoginPolicy

namespace Accounts

/-- An operation on accounts yields a value or an error; errors end it. -/
abbrev Operation (α : Type) := ExceptT Error Action α

namespace Operation

variable {α : Type}

def ofAction (p : Action (Except Error α)) : Operation α := p

def database (r : Database.Request) : Operation r.Result :=
  ofAction do return (← Action.database r).mapError Error.database

def cache (p : Action (Except Cache.Error α)) : Operation α :=
  ofAction do return (← p).mapError Error.cache

end Operation

/-- The part of a read that the cache does. -/
inductive Lookup (α : Type) where
  /-- The cached value, or nothing if the database is known to have none. -/
  | cached (value : Option α)
  /-- The value has to be loaded, under a lock if there is one. -/
  | load (lock : Option Cache.Lock)

variable (a : Accounts) {α : Type} [Storable α]

/-- Drops entries after a write. An entry that cannot be dropped is only
warned about, since the write is done. -/
def invalidate (keys : List String) : Action Unit := do
  match ← a.cache.delete keys with
  | .ok _ => return ()
  | .error _ => Action.warn "failed to invalidate cache"

/-- Reads what was hit in the cache. An entry that makes no sense is
dropped, so that whoever asks next loads the row. -/
def decode (key : String) : Cache.Cached → Operation (Option α)
  | .absent => return none
  | .value bytes =>
    match Storable.decode? bytes with
    | some value => return some value
    | none => do
      Action.warn "evicting corrupt cache entry"
      a.invalidate [key]
      throw (.corrupt key)

def lookup (key : String) : Operation (Lookup α) := do
  match ← Operation.cache (a.cache.getOrLock key) with
  | .hit value => return .cached (← a.decode key value)
  | .owner lock => return .load (some lock)
  | .bypass => return .load none

def releaseLoad : Option Cache.Lock → Action Unit
  | some lock => Cache.Manager.release lock
  | none => return ()

def fill (key : String) (value : α) : Action Unit := do
  match Storable.encode? value with
  | none => Action.warn "failed to fill cache"
  | some bytes =>
    match ← a.cache.store (.new key bytes) with
    | .ok _ => return ()
    | .error _ => Action.warn "failed to fill cache"

/-- Records that the database has no row for a key. -/
def fillAbsent (key : String) : Action Unit := do
  match ← a.cache.storeAbsent key with
  | .ok _ => return ()
  | .error _ => Action.warn "failed to store negative entry"

/-- Caches what was loaded under a key, a value or its absence, and
passes it on. -/
def fillFound (key : String) : Option α → Operation (Option α)
  | some value => do
    a.fill key value
    return some value
  | none => do
    a.fillAbsent key
    return none

/-- Reads a key: from the cache, or by `load` while the lock of the key is
held. The lock is given back whatever the load comes to. -/
def read (key : String) (load : Operation (Option α)) : Operation (Option α) := do
  match ← a.lookup key with
  | .cached value => return value
  | .load lock =>
    let result ← ExceptT.lift load.run
    releaseLoad lock
    ExceptT.mk (pure result)

/-- The part of a token that may be logged: its first eight bytes, or all of
it if they do not end at the end of a character. -/
def tokenPrefix (token : String) : String :=
  ((List.range 9).map fun n => String.ofList (token.toList.take n)).find? (·.utf8ByteSize == 8)
    |>.getD token

end Accounts

end AccountCache
