import AccountCache.Duration
import AccountCache.Text.Integer
import AccountCache.Text.Utf8

namespace AccountCache

namespace Cache

/-- What is stored under a key of which the backing store has no row. A
value of just these bytes would be taken for that. -/
def nilBytes : Bytes := .ofText "null"

/-- A value to be written. A lifetime below one second leaves the choice
to the cache. -/
structure Item where
  key : String
  value : Bytes
  ttl : Duration
deriving DecidableEq

def Item.new (key : String) (value : Bytes) : Item := ⟨key, value, .zero⟩

def Item.ttlSeconds (i : Item) : Nat := i.ttl.seconds

/-- A write whose lifetime is settled, in whole seconds. -/
structure Entry where
  key : String
  value : Bytes
  seconds : Nat
deriving DecidableEq

/-- A value read from the cache: bytes, or the mark that the backing store
has no row. -/
inductive Cached where
  | value (bytes : Bytes)
  | absent
deriving DecidableEq

namespace Cached

def ofBytes (b : Bytes) : Cached := if b = nilBytes then absent else value b

def isAbsent : Cached → Bool
  | absent => true
  | value _ => false

def bytes? : Cached → Option Bytes
  | value b => some b
  | absent => none

end Cached

/-- How long a key remains, rounded to seconds: it is not there, has no
end, or ends. -/
inductive Lifetime where
  | missing
  | persistent
  | expires (left : Duration)
deriving DecidableEq

namespace Lifetime

/-- The lifetime that a store reports: seconds, or -1 for a key without end,
or another negative number for a missing key. -/
def ofSeconds (n : Int) : Lifetime :=
  if n = -1 then persistent else if n < 0 then missing else expires (.ofSeconds n.toNat)

def seconds : Lifetime → Int
  | missing => -2
  | persistent => -1
  | expires left => wrapInt64 left.seconds

/-- Whether the key is there and has an end. Zero seconds are left in its
last half second. -/
def isLive : Lifetime → Bool
  | expires _ => true
  | _ => false

end Lifetime

end Cache

end AccountCache
