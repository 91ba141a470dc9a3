import AccountCache.Cache.Request
import AccountCache.Database.Request
import AccountCache.Instant
import AccountCache.Program

namespace AccountCache

/-- What the operations of this library ask of their surroundings: the
cache, the database, clocks, chance, sleep, and a place for warnings. -/
inductive Effect where
  | cache (r : Cache.Request)
  | database (r : Database.Request)
  /-- The clock, which was read before at the given moment. -/
  | clock (last : Instant)
  | wallClock
  /-- A duration between two others, drawn at random. -/
  | draw (low high : Duration)
  /-- Sleep until a moment. The answer is the moment of waking. -/
  | sleep (wake : Instant)
  | warn (message : String)
  /-- The clock cannot represent a moment that is needed, so the operation
  breaks off. -/
  | overflow

/-- A clock never runs backwards, a sleeper never wakes early, and a draw
stays in its bounds. -/
abbrev Effect.Answer : Effect → Type
  | cache r => Except Cache.Error r.Result
  | database r => Except Database.Error r.Result
  | clock last => { t : Instant // last ≤ t }
  | wallClock => Timestamp
  | draw low high => { d : Duration // low ≤ d ∧ d ≤ max low high }
  | sleep wake => { t : Instant // wake ≤ t }
  | warn _ => Unit
  | overflow => Empty

abbrev effects : Interface := ⟨Effect, Effect.Answer⟩

/-- An operation that may ask for effects. Where it breaks off it has no
value to yield. -/
abbrev Action (α : Type) := Program effects α

namespace Action

variable {α : Type}

def perform (e : Effect) : Action e.Answer := Program.request (I := effects) e

def cache (r : Cache.Request) : Action (Except Cache.Error r.Result) := perform (.cache r)

def database (r : Database.Request) : Action (Except Database.Error r.Result) :=
  perform (.database r)

def warn (message : String) : Action Unit := perform (.warn message)

def overflow : Action α := .ask .overflow Empty.elim

def sleepUntil (wake : Instant) : Action Unit := do discard <| perform (.sleep wake)

def sleepFor (d : Duration) : Action Unit := do
  let ⟨now, _⟩ ← perform (.clock .start)
  sleepUntil (now.after d)

end Action

end AccountCache
