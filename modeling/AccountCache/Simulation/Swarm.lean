import AccountCache.Cache.Manager

namespace AccountCache

namespace Simulation

/-- What the owner of the key's lock does: it works for a while, stores a
value, and gives the lock back. -/
structure Work where
  time : Duration
  value : Option Bytes
  /-- Whether the owner keeps the lock. -/
  abandons : Bool

/-- What became of a caller. -/
inductive Fate where
  | owner (acquired finished : Instant)
  | hit
  | bypass
  | failed (e : Cache.Error)

/-- The part of an owner, from the moment when it got the lock. -/
def Work.perform (work : Work) (m : Cache.Manager) (key : String) (lock : Cache.Lock) :
    Action Fate := do
  let ⟨acquired, _⟩ ← Action.perform (.clock .start)
  let ⟨finished, _⟩ ← Action.perform (.sleep (acquired.after work.time))
  if let some value := work.value then
    discard <| m.store (.new key value)
  if !work.abandons then
    Cache.Manager.release lock
  return .owner acquired finished

def caller (m : Cache.Manager) (key : String) (work : Work) : Action Fate := do
  match ← m.getOrLock key with
  | .ok (.owner lock) => work.perform m key lock
  | .ok (.hit _) => return .hit
  | .ok .bypass => return .bypass
  | .error e => return .failed e

/-- The time of an owner's work. -/
def Fate.span? : Fate → Option (Instant × Instant)
  | .owner acquired finished => some (acquired, finished)
  | _ => none

/-- The greatest number of owners at one moment. One who finishes at a
moment makes room for one who starts then. -/
def mostOwners (fates : List Fate) : Nat :=
  let spans := fates.filterMap Fate.span?
  let atStartOf (s : Instant × Instant) : Nat :=
    (spans.filter fun u => u.1 ≤ s.1 && s.1 < u.2).length + if s.1 == s.2 then 1 else 0
  (spans.map atStartOf).foldl max 0

end Simulation

end AccountCache
