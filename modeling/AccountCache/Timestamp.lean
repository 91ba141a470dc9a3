import AccountCache.Calendar
import AccountCache.Duration

namespace AccountCache

/-- A point of time: nanoseconds since 1970-01-01T00:00:00 UTC, and an
offset from UTC in seconds. -/
structure Timestamp where
  nanos : Int
  offset : Int
deriving DecidableEq

namespace Timestamp

def epoch : Timestamp := ⟨0, 0⟩

instance : Inhabited Timestamp := ⟨epoch⟩

/-- Whether `t` is a later point of time than `u`, whatever
their offsets. -/
def isAfter (t u : Timestamp) : Bool := u.nanos < t.nanos

def utc (t : Timestamp) : Timestamp := ⟨t.nanos, 0⟩

def advance (t : Timestamp) (nanos : Nat) : Timestamp := ⟨t.nanos + nanos, t.offset⟩

/-- The span from `now` until `t`, zero once `t` has passed. -/
def remaining (t now : Timestamp) : Duration := Duration.ofNanos (t.nanos - now.nanos).toNat

/-- Seconds since the epoch on a clock that shows local time. -/
def localSeconds (t : Timestamp) : Int := t.nanos / 1000000000 + t.offset

def localDate (t : Timestamp) : Date := Date.ofDays (t.localSeconds / 86400)

def subsecNanos (t : Timestamp) : Nat := (t.nanos % 1000000000).toNat

/-- The point of time at which a local clock of the given offset shows a
date and a time of day. -/
def ofLocal (date : Date) (secondOfDay subsecNanos : Nat) (offset : Int) : Timestamp :=
  ⟨(date.toDays * 86400 + secondOfDay - offset) * 1000000000 + subsecNanos, offset⟩

end Timestamp

end AccountCache
