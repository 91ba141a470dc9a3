import AccountCache.Cache.Backoff
import AccountCache.Cache.Policy
import AccountCache.Effect

namespace AccountCache

namespace Cache

/-- A cache in front of a slower source, with a policy that stores can
honour. Of all callers that miss a key, one gets the lock and with it the
right to recompute the value; the others wait until the lock is free or
their patience ends. A read never fails because the backend does. -/
structure Manager where
  policy : Policy
  usable : policy.problem? = none

/-- What a caller gets who wants a value or the right to compute it. A
caller that gets neither reads the source on its own. -/
inductive Lookup where
  | hit (value : Cached)
  /-- The caller computes the value, stores it, and releases the lock. -/
  | owner (lock : Lock)
  | bypass

namespace Lookup

def isHit : Lookup → Bool
  | hit _ => true
  | _ => false

def isOwner : Lookup → Bool
  | owner _ => true
  | _ => false

end Lookup

inductive LockAttempt where
  | acquired (lock : Lock)
  | contended
  | unavailable

namespace Manager

def ofPolicy (p : Policy) : Except Error Manager :=
  match h : p.problem? with
  | none => .ok ⟨p, h⟩
  | some e => .error e

instance : Inhabited Manager := ⟨⟨{}, by decide⟩⟩

variable (m : Manager)

/-- Reads the store. An entry that cannot be read is a miss, so that a
broken backend slows callers down and fails none. -/
def checkCache (key : String) : Action (Option Cached) := do
  match ← Action.cache (.get key) with
  | .ok value => return value.map Cached.ofBytes
  | .error _ =>
    Action.warn "cache GET failed, treating as miss"
    return none

/-- Tries for the lock of a key. Without a lock backend nobody is kept from
the source. -/
def tryLock (key : String) : Action LockAttempt := do
  match ← Action.cache (.acquire key m.policy.lockDuration m.policy.lockTries) with
  | .ok (some lock) => return .acquired lock
  | .ok none => return .contended
  | .error _ =>
    Action.warn "lock backend unavailable, bypassing cache"
    return .unavailable

/-- Whether the lock of a key is held; a lock that cannot be probed
counts as free. -/
def isLocked (key : String) : Action Bool := do
  match ← Action.cache (.isHeld key) with
  | .ok held => return held
  | .error _ =>
    Action.warn "lock probe failed"
    return false

/-- Reads a key, without a part in the locking. -/
def get (key : String) : Action (Option Cached) :=
  if m.policy.disabled then pure none else checkCache key

/-- Looks once whether the wait for a key is over: the lock is free, and the
value is there or the lock is now the caller's. As long as the lock is held
the store is not asked. -/
def poll (key : String) : Action (Option Lookup) := do
  if ← isLocked key then return none
  match ← checkCache key with
  | some value => return some (.hit value)
  | none =>
    match ← m.tryLock key with
    | .acquired lock => return some (.owner lock)
    | .unavailable => return some .bypass
    | .contended => return none

def pollBackoff (attempt : Nat) : Backoff := { Backoff.standard with attempt }

/-- A delay between two looks is never under 20 ms and never over 200 ms. -/
abbrev PollDelay := { d : Duration // Duration.ofMillis 20 ≤ d ∧ d ≤ Duration.ofMillis 200 }

theorem nanos_step_pollBackoff (attempt : Nat) :
    (pollBackoff attempt).step.nanos =
      min (min (20000000 * Nat.pow 2 (Nat.min attempt 16)) Duration.maxNanos) 200000000 := by
  rw [Backoff.step, Duration.nanos_min, Duration.nanos_mul]; rfl

theorem step_pollBackoff (attempt : Nat) :
    Duration.ofMillis 20 ≤ (pollBackoff attempt).step ∧
      (pollBackoff attempt).step ≤ Duration.ofMillis 200 := by
  have low : 1 ≤ Nat.pow 2 (Nat.min attempt 16) := Nat.one_le_two_pow
  show 20000000 ≤ (pollBackoff attempt).step.nanos ∧ (pollBackoff attempt).step.nanos ≤ 200000000
  rw [nanos_step_pollBackoff, Duration.maxNanos]
  omega

theorem narrow_pollDelay {d low high : Duration} (low_ge : Duration.ofMillis 20 ≤ low)
    (high_le : max low high ≤ Duration.ofMillis 200) (h : low ≤ d ∧ d ≤ max low high) :
    Duration.ofMillis 20 ≤ Backoff.narrow d ∧ Backoff.narrow d ≤ Duration.ofMillis 200 := by
  obtain ⟨h, h'⟩ := h
  simp only [Backoff.narrow, Duration.le_def, Duration.ofMillis, Duration.nanos_ofNanos,
    Duration.maxNanos] at *
  omega

theorem max_step_pollBackoff (attempt : Nat) :
    max (pollBackoff attempt).min (pollBackoff attempt).step ≤ Duration.ofMillis 200 := by
  have := (step_pollBackoff attempt).2
  rw [Duration.le_def] at *
  rw [Duration.nanos_max]
  exact Nat.max_le.2 ⟨(by decide : 20000000 ≤ 200000000), this⟩

/-- The delay before the next look, after a number of looks. -/
def pollDelay (attempt : Nat) : Action PollDelay :=
  let b := pollBackoff attempt
  if b.draws then do
    let ⟨drawn, h⟩ ← Action.perform (.draw b.min b.step)
    return ⟨Backoff.narrow drawn, narrow_pollDelay (Nat.le_refl _) (max_step_pollBackoff attempt) h⟩
  else pure ⟨b.step, step_pollBackoff attempt⟩

def giveUp (key : String) (started now : Instant) : Action (Except Error Lookup) := do
  let ⟨ended, _⟩ ← Action.perform (.clock now)
  Action.warn "gave up waiting for lock owner"
  return .error (.waitTooLong key (ended.since started))

/-- Looks again and again until the wait for a key is over or the deadline
has come. The clock was last read at `last`; that the deadline comes nearer
with every reading is why this ends. -/
def awaitOwner (key : String) (started deadline last : Instant) (attempt : Nat) :
    Action (Except Error Lookup) := do
  match ← m.poll key with
  | some found => return .ok found
  | none =>
    let ⟨now, _⟩ ← Action.perform (.clock last)
    if _ : deadline ≤ now then giveUp key started now
    else
      let ⟨delay, _⟩ ← pollDelay attempt
      let ⟨woken, _⟩ ← Action.perform (.sleep (now.after (min delay (deadline.since now))))
      awaitOwner key started deadline woken (attempt + 1)
termination_by deadline.nanos - last.nanos
decreasing_by
  simp only [Instant.le_def, Instant.after, Instant.since, Duration.le_def, Duration.nanos_min,
    Duration.ofMillis, Duration.nanos_ofNanos, Duration.maxNanos] at *
  omega

/-- Waits for the owner of a key's lock. -/
def wait (key : String) : Action (Except Error Lookup) := do
  let ⟨started, _⟩ ← Action.perform (.clock .start)
  match started.add? m.policy.waitBudget with
  | some deadline => m.awaitOwner key started deadline started 0
  | none => Action.overflow

/-- The value under a key, or the right to compute it. Whoever misses and
does not get the lock waits for its owner. -/
def getOrLock (key : String) : Action (Except Error Lookup) :=
  if m.policy.disabled then pure (.ok .bypass)
  else do
    match ← checkCache key with
    | some value => return .ok (.hit value)
    | none =>
      match ← m.tryLock key with
      | .acquired lock => return .ok (.owner lock)
      | .unavailable => return .ok .bypass
      | .contended => m.wait key

/-- Takes the lock of a key, without a look at the cache. -/
def acquireLock (key : String) : Action (Except Error (Option Lock)) :=
  if m.policy.disabled then pure (.ok none)
  else Action.cache (.acquire key m.policy.lockDuration m.policy.lockTries)

/-- Gives a lock back. If that fails, the lock expires on its own, and
nobody waits longer than for a crashed owner. -/
def release (lock : Lock) : Action Unit := do
  match ← Action.cache (.release lock) with
  | .ok true => return ()
  | .ok false => Action.warn "lock expired before release"
  | .error _ => Action.warn "failed to release lock"

/-- The lifetime of an item in whole seconds: its own, or else
the policy's. -/
def seconds (i : Item) : Nat :=
  if i.ttlSeconds = 0 then m.policy.defaultTtl.seconds else i.ttlSeconds

def entry (i : Item) : Entry := ⟨i.key, i.value, m.seconds i⟩

def store (i : Item) : Action (Except Error Unit) :=
  if m.policy.disabled then pure (.ok ()) else Action.cache (.set (m.entry i))

def storeMany (items : List Item) : Action (Except Error Unit) :=
  if m.policy.disabled || items.isEmpty then pure (.ok ())
  else Action.cache (.setMany (items.map m.entry))

/-- Records that the source has nothing for a key. -/
def storeAbsent (key : String) : Action (Except Error Unit) :=
  m.store ⟨key, nilBytes, m.policy.nilTtl⟩

def delete (keys : List String) : Action (Except Error Unit) :=
  if m.policy.disabled || keys.isEmpty then pure (.ok ()) else Action.cache (.delete keys)

/-- Adds one to a counter. A disabled manager counts nothing. -/
def increment (key : String) : Action (Except Error Int) :=
  if m.policy.disabled then pure (.ok 0) else Action.cache (.increment key)

/-- Gives a key a new lifetime, if it is there. -/
def expire (key : String) (ttl : Duration) : Action (Except Error Unit) :=
  if m.policy.disabled then pure (.ok ())
  else do
    match ← Action.cache (.expire key ttl) with
    | .ok _ => return .ok ()
    | .error e => return .error e

def lifetime (key : String) : Action (Except Error Lifetime) :=
  if m.policy.disabled then pure (.ok .missing)
  else do
    match ← Action.cache (.ttl key) with
    | .ok seconds => return .ok (.ofSeconds seconds)
    | .error e => return .error e

end Manager

end Cache

end AccountCache
