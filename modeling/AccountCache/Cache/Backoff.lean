import AccountCache.Duration

namespace AccountCache

namespace Cache

/-- Growing delays between attempts: each twice the one before, up to a
greatest delay. With jitter a delay is drawn between the least delay and the
current one. -/
structure Backoff where
  min : Duration
  max : Duration
  jitter : Bool
  /-- Delays taken since the start or the last reset. -/
  attempt : Nat
deriving DecidableEq

namespace Backoff

/-- The count of attempts stays at its greatest value of 32 bits. -/
def maxAttempt : Nat := 4294967295

/-- Delays from `min` up to `max`, or all of them `min` if
that is longer. -/
def new (min max : Duration) : Backoff := ⟨min, Max.max max min, true, 0⟩

def standard : Backoff := new (.ofMillis 20) (.ofMillis 200)

instance : Inhabited Backoff := ⟨standard⟩

def reset (b : Backoff) : Backoff := { b with attempt := 0 }

/-- The delay that comes next, without jitter. After 16 doublings it
grows no more. -/
def step (b : Backoff) : Duration := Min.min (b.min.mul (Nat.pow 2 (Nat.min b.attempt 16))) b.max

def advance (b : Backoff) : Backoff := { b with attempt := Nat.min (b.attempt + 1) maxAttempt }

/-- A drawn delay keeps only 64 bits of its nanoseconds, as they are counted
in integers of that width. -/
def narrow (drawn : Duration) : Duration := .ofNanos (drawn.nanos % 18446744073709551616)

def draws (b : Backoff) : Bool := b.jitter && b.min < b.step

/-- The next delay, where `drawn` is the draw between `min` and the step. -/
def delay (b : Backoff) (drawn : Duration) : Duration := if b.draws then narrow drawn else b.step

end Backoff

end Cache

end AccountCache
