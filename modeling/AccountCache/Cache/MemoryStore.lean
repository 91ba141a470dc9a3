import AccountCache.Cache.Request
import AccountCache.Instant
import AccountCache.SortedMap

namespace AccountCache

namespace Cache

/-- A value, and the moment from which it counts as gone. Until it is
dropped it lingers, but nobody is shown it. -/
structure Stored where
  value : Bytes
  deadline : Option Instant
deriving DecidableEq

def Stored.isExpired (e : Stored) (now : Instant) : Bool := e.deadline.any fun at_ => at_ ≤ now

/-- Entries and locks kept in memory. An entry is live before its deadline.
One that is past it is dropped when it is read, and in bulk when a write
finds the store large. An operation that would need a deadline the clock
cannot represent yields nothing. -/
structure MemoryStore where
  entries : SortedMap String Stored
  sweepThreshold : Nat
  lastSweep : Instant

namespace MemoryStore

/-- Two sweeps by writes are at least this far apart. -/
def sweepInterval : Duration := .ofSeconds 1

def withThreshold (sweepThreshold : Nat) (now : Instant) : MemoryStore :=
  ⟨.empty, sweepThreshold, now⟩

def new (now : Instant) : MemoryStore := withThreshold 10000 now

instance : Inhabited MemoryStore := ⟨new .start⟩

/-- The entry under a key, if it is live. -/
def live? (s : MemoryStore) (now : Instant) (key : String) : Option Stored :=
  (s.entries.find? key).filter fun e => !e.isExpired now

/-- How many entries are live, locks included. -/
def size (s : MemoryStore) (now : Instant) : Nat :=
  (s.entries.filter fun _ e => !e.isExpired now).size

def sweep (s : MemoryStore) (now : Instant) : MemoryStore :=
  { s with entries := s.entries.filter fun _ e => !e.isExpired now }

def cleanup (s : MemoryStore) (now : Instant) : Nat × MemoryStore :=
  (s.entries.size - (s.sweep now).entries.size, s.sweep now)

/-- What a write does first: it sweeps, if the store is large and the last
sweep is long ago. -/
def maybeSweep (s : MemoryStore) (now : Instant) : MemoryStore :=
  if s.sweepThreshold ≤ s.entries.size ∧ sweepInterval ≤ now.since s.lastSweep then
    { s.sweep now with lastSweep := now }
  else s

def put (s : MemoryStore) (key : String) (e : Stored) : MemoryStore :=
  { s with entries := s.entries.insert key e }

def drop (s : MemoryStore) (key : String) : MemoryStore := { s with entries := s.entries.erase key }

def dropExpired (s : MemoryStore) (now : Instant) (key : String) : MemoryStore :=
  if (s.entries.find? key).any (·.isExpired now) then s.drop key else s

def get (s : MemoryStore) (now : Instant) (key : String) : Option Bytes × MemoryStore :=
  ((s.live? now key).map (·.value), s.dropExpired now key)

/-- Writes an entry, without a sweep. -/
def insert? (s : MemoryStore) (now : Instant) (e : Entry) : Option MemoryStore :=
  (now.add? (.ofSeconds e.seconds)).map fun deadline => s.put e.key ⟨e.value, some deadline⟩

def set (s : MemoryStore) (now : Instant) (e : Entry) : Option Unit × MemoryStore :=
  let s := s.maybeSweep now
  match s.insert? now e with
  | some s => (some (), s)
  | none => (none, s)

/-- Writes entries one after the other, up to the first that cannot
be written. -/
def insertAll (s : MemoryStore) (now : Instant) : List Entry → Option Unit × MemoryStore
  | [] => (some (), s)
  | e :: rest =>
    match s.insert? now e with
    | some s => s.insertAll now rest
    | none => (none, s)

def setMany (s : MemoryStore) (now : Instant) (entries : List Entry) : Option Unit × MemoryStore :=
  (s.maybeSweep now).insertAll now entries

def delete (s : MemoryStore) (keys : List String) : MemoryStore := keys.foldl drop s

def counter? (value : Bytes) : Option Int := value.text?.bind int64?

/-- Adds one to a counter and keeps its deadline. A counter that is not
there starts at zero and has no deadline. -/
def increment (s : MemoryStore) (now : Instant) (key : String) : Except Error Int × MemoryStore :=
  let s := s.maybeSweep now
  match s.live? now key with
  | none => (.ok 1, s.put key ⟨.ofText "1", none⟩)
  | some e =>
    match counter? e.value with
    | none => (.error (.notAnInteger key), s)
    | some n =>
      if n = maxInt64 then (.error (.overflow key), s)
      else (.ok (n + 1), s.put key ⟨.ofText (toString (n + 1)), e.deadline⟩)

/-- Gives a live entry a new lifetime in whole seconds. One of less than a
second removes it. -/
def expire (s : MemoryStore) (now : Instant) (key : String) (ttl : Duration) :
    Option Bool × MemoryStore :=
  match s.live? now key with
  | none => (some false, s.drop key)
  | some e =>
    if ttl.seconds = 0 then (some true, s.drop key)
    else
      match now.add? (.ofSeconds ttl.seconds) with
      | some deadline => (some true, s.put key ⟨e.value, some deadline⟩)
      | none => (none, s)

/-- Milliseconds as seconds, a half rounded up, in integers of 64 bits,
which wrap where they overflow. -/
def roundMillis (millis : Nat) : Int := (wrapInt64 (wrapInt64 millis + 500)).tdiv 1000

/-- The seconds left for a key, -1 if it has no end, -2 if it is missing. -/
def ttl (s : MemoryStore) (now : Instant) (key : String) : Int :=
  match s.live? now key with
  | none => -2
  | some e =>
    match e.deadline with
    | none => -1
    | some deadline => roundMillis (deadline.since now).millis

/-- Takes the lock of a key for the holder of a token, unless it is held.
Attempts at one moment all end alike, so one is enough. -/
def acquire (s : MemoryStore) (now : Instant) (lock : Lock) : Option (Option Lock) × MemoryStore :=
  let s := s.maybeSweep now
  match s.live? now lock.key with
  | some _ => (some none, s)
  | none =>
    match now.add? lock.expiry with
    | some deadline => (some (some lock), s.put lock.key ⟨.ofText lock.token, some deadline⟩)
    | none => (none, s)

/-- Gives a lock back. It has to be live and to hold the token still. -/
def release (s : MemoryStore) (now : Instant) (lock : Lock) : Bool × MemoryStore :=
  if (s.live? now lock.key).any (·.value == .ofText lock.token) then (true, s.drop lock.key)
  else (false, s)

def isHeld (s : MemoryStore) (now : Instant) (cacheKey : String) : Bool × MemoryStore :=
  ((s.live? now (Key.lock cacheKey)).isSome, s.dropExpired now (Key.lock cacheKey))

/-- Answers a request at a moment; `token` is the one that a new lock gets.
No answer means that a deadline could not be represented. -/
def serve (s : MemoryStore) (now : Instant) (token : String) :
    (r : Request) → Option (Except Error r.Result) × MemoryStore
  | .get key => let (v, s) := s.get now key; (some (.ok v), s)
  | .set e => let (v, s) := s.set now e; (v.map .ok, s)
  | .setMany es => let (v, s) := s.setMany now es; (v.map .ok, s)
  | .delete keys => (some (.ok ()), s.delete keys)
  | .increment key => let (v, s) := s.increment now key; (some v, s)
  | .expire key ttl => let (v, s) := s.expire now key ttl; (v.map .ok, s)
  | .ttl key => (some (.ok (s.ttl now key)), s)
  | .acquire cacheKey expiry _ =>
    let (v, s) := s.acquire now ⟨cacheKey, token, expiry⟩
    (v.map .ok, s)
  | .release lock => let (v, s) := s.release now lock; (some (.ok v), s)
  | .isHeld cacheKey => let (v, s) := s.isHeld now cacheKey; (some (.ok v), s)

end MemoryStore

end Cache

end AccountCache
