import AccountCache.Instant
import AccountCache.Redis.Command
import AccountCache.Redis.Reply
import AccountCache.SortedMap

namespace AccountCache

namespace Redis

/-- A value and the moment from which its key is gone. Whether a key is
there is decided by the clock whenever it is asked for. -/
structure Kept where
  value : Bytes
  deadline : Option Instant
deriving DecidableEq

/-- What a server keeps, by keys, and where it is within a transaction. -/
structure Server where
  entries : SortedMap String Kept := .empty
  knowsRelease : Bool := false
  /-- The commands queued since MULTI, last first. -/
  queue : Option (List Command) := none
  /-- Replies that stand in for the next run of a command with that name. -/
  forced : List (String × Reply) := []

instance : Inhabited Server := ⟨{}⟩

namespace Server

def find? (s : Server) (now : Instant) (key : String) : Option Kept :=
  (s.entries.find? key).filter fun e => !e.deadline.any (· ≤ now)

def put (s : Server) (key : String) (e : Kept) : Server :=
  { s with entries := s.entries.insert key e }

def remove (s : Server) (key : String) : Server := { s with entries := s.entries.erase key }

def badLifetime : Reply := .error "ERR invalid expire time"

def notAnInteger : Reply := .error "ERR value is not an integer or out of range"

/-- Whether a count of seconds or milliseconds may be a lifetime. -/
def isLifetime (n : Nat) : Bool := 0 < n && (n : Int) ≤ maxInt64

/-- Seconds left, to the nearest one. -/
def secondsLeft (left : Duration) : Int := ((left.millis + 500) / 1000 : Nat)

/-- Runs a command that is no part of a transaction's frame. -/
def run (s : Server) (now : Instant) : Command → Reply × Server
  | .ping => (.status "PONG", s)
  | .multi | .exec => (.error "ERR command not allowed here", s)
  | .isPresent key => (.integer (if (s.find? now key).isSome then 1 else 0), s)
  | .get key =>
    match s.find? now key with
    | some e => (.bulk e.value, s)
    | none => (.nil, s)
  | .setEx key value seconds =>
    if isLifetime seconds then
      (.status "OK", s.put key ⟨value, some (now.after (.ofSeconds seconds))⟩)
    else (badLifetime, s)
  | .del keys =>
    (.integer (keys.eraseDups.filter fun k => (s.find? now k).isSome).length, keys.foldl remove s)
  | .incrBy key n =>
    match s.find? now key with
    | none => (.integer n, s.put key ⟨.ofText (toString n), none⟩)
    | some e =>
      match e.value.text?.bind int64? with
      | none => (notAnInteger, s)
      | some old =>
        if old + n < minInt64 ∨ maxInt64 < old + n then (notAnInteger, s)
        else (.integer (old + n), s.put key ⟨.ofText (toString (old + n)), e.deadline⟩)
  | .expire key seconds =>
    match s.find? now key with
    | none => (.integer 0, s)
    | some e =>
      if seconds ≤ 0 then (.integer 1, s.remove key)
      else (.integer 1, s.put key ⟨e.value, some (now.after (.ofSeconds seconds.toNat))⟩)
  | .ttl key =>
    match s.find? now key with
    | none => (.integer (-2), s)
    | some e =>
      match e.deadline with
      | none => (.integer (-1), s)
      | some deadline => (.integer (secondsLeft (deadline.since now)), s)
  | .setNew key token millis =>
    if !isLifetime millis then (badLifetime, s)
    else if (s.find? now key).isSome then (.nil, s)
    else (.status "OK", s.put key ⟨.ofText token, some (now.after (.ofMillis millis))⟩)
  | .runRelease key token =>
    if !s.knowsRelease then (.error "NOSCRIPT No matching script", s)
    else if (s.find? now key).any (·.value == .ofText token) then (.integer 1, s.remove key)
    else (.integer 0, s)
  | .loadRelease => (.bulk (.ofText "release"), { s with knowsRelease := true })

/-- Takes the reply that is forced for the next command of a name. -/
def takeForced (s : Server) (name : String) : Option Reply × Server :=
  match s.forced.find? (·.1 == name) with
  | none => (none, s)
  | some f => (some f.2, { s with forced := s.forced.eraseP (·.1 == name) })

/-- Runs a command, or answers what is forced for it. A forced reply comes
without what the command does. -/
def runOrForced (s : Server) (now : Instant) (c : Command) : Reply × Server :=
  match s.takeForced c.name with
  | (some reply, s) => (reply, s)
  | (none, s) => s.run now c

def runAll (s : Server) (now : Instant) : List Command → List Reply × Server
  | [] => ([], s)
  | c :: rest =>
    let (reply, s) := s.runOrForced now c
    let (replies, s) := s.runAll now rest
    (reply :: replies, s)

/-- Answers a command: between MULTI and EXEC commands are queued, and
EXEC runs them. -/
def serve (s : Server) (now : Instant) (c : Command) : Reply × Server :=
  match c, s.queue with
  | .multi, _ => (.status "OK", { s with queue := some [] })
  | .exec, some queue =>
    let s := { s with queue := none }
    match s.takeForced "EXEC" with
    | (some reply, s) => (reply, s)
    | (none, s) =>
      let (replies, s) := s.runAll now queue.reverse
      (.array replies, s)
  | c, some queue => (.status "QUEUED", { s with queue := some (c :: queue) })
  | c, none => s.runOrForced now c

def serveAll (s : Server) (now : Instant) : List Command → List Reply × Server
  | [] => ([], s)
  | c :: rest =>
    let (reply, s) := s.serve now c
    let (replies, s) := s.serveAll now rest
    (reply :: replies, s)

end Server

end Redis

end AccountCache
