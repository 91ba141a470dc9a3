import AccountCache.Cache.Request
import AccountCache.Program
import AccountCache.Redis.Command
import AccountCache.Redis.Reply

namespace AccountCache

namespace Redis

/-- An exchange with a server: some commands, and a reply to each. -/
abbrev wire : Interface := ⟨List Command, fun _ => Except Cache.Error (List Reply)⟩

/-- An operation on a server: a few exchanges, where a reply that makes no
sense is an error of the backend. -/
abbrev Exchange (α : Type) := ExceptT Cache.Error (Program wire) α

namespace Exchange

variable {α : Type}

def backendError : Exchange α := throw .backend

/-- Takes the reply for what it should be. -/
def expect (read : Reply → Option α) (reply : Reply) : Exchange α :=
  match read reply with
  | some a => pure a
  | none => backendError

def send (cs : List Command) : Exchange Reply := do
  let replies ← ExceptT.mk (Program.request (I := wire) cs)
  match replies.getLast? with
  | some reply => return reply
  | none => backendError

def ping : Exchange Unit := do
  let isPong (r : Reply) : Option Unit :=
    r.textBytes?.map (fun _ => ()) <|> r.int?.map (fun _ => ())
  discard <| expect isPong (← send [.ping])

/-- Reads whether a key is there together with its value. -/
def get (key : String) : Exchange (Option Bytes) := do
  match ← send [.multi, .isPresent key, .get key, .exec] with
  | .array [present, value] =>
    let present ← expect Reply.bool? present
    let value ← expect Reply.value? value
    match present, value with
    | false, _ => return none
    | true, some bytes => return some bytes
    | true, none => throw (.notRetrievable key)
  | _ => backendError

def set (e : Cache.Entry) : Exchange Unit := do
  expect Reply.unit? (← send [.setEx e.key e.value e.seconds])

def setMany (es : List Cache.Entry) : Exchange Unit :=
  if es.isEmpty then return ()
  else do
    let writes := es.map fun e => Command.setEx e.key e.value e.seconds
    expect Reply.writes? (← send (.multi :: writes ++ [.exec]))

def delete (keys : List String) : Exchange Unit :=
  if keys.isEmpty then return ()
  else do expect Reply.unit? (← send [.del keys])

def increment (key : String) : Exchange Int := do expect Reply.int? (← send [.incrBy key 1])

/-- Tells a key how long it lives. The seconds are sent as a signed integer
of 64 bits, so that some spans come out as negative ones. -/
def expire (key : String) (ttl : Duration) : Exchange Bool := do
  expect Reply.bool? (← send [.expire key (wrapInt64 ttl.seconds)])

def ttl (key : String) : Exchange Int := do expect Reply.int? (← send [.ttl key])

/-- The expiry of a lock in milliseconds: at least one, and 64
bits of it. -/
def lockMillis (expiry : Duration) : Nat := max expiry.millis 1 % 18446744073709551616

/-- Tries for a lock, a number of times. -/
def tryAcquire (lock : Cache.Lock) : Nat → Exchange (Option Cache.Lock)
  | 0 => return none
  | tries + 1 => do
    match ← send [.setNew lock.key lock.token (lockMillis lock.expiry)] with
    | .error _ => backendError
    | .nil => tryAcquire lock tries
    | _ => return some lock

def acquire (lock : Cache.Lock) (tries : Nat) : Exchange (Option Cache.Lock) :=
  tryAcquire lock (max tries 1)

/-- Runs the release script, and makes it known first if the server does
not have it. -/
def release (lock : Cache.Lock) : Exchange Bool := do
  let reply ← send [.runRelease lock.key lock.token]
  if reply.isErrorOf "NOSCRIPT" then
    discard <| expect Reply.unit? (← send [.loadRelease])
    let deleted ← expect Reply.int? (← send [.runRelease lock.key lock.token])
    return 0 < deleted
  else
    let deleted ← expect Reply.int? reply
    return 0 < deleted

def isHeld (cacheKey : String) : Exchange Bool := do
  expect Reply.bool? (← send [.isPresent (Key.lock cacheKey)])

/-- Does what a request asks for; `token` is the one that a new lock gets.
Every request has a sequence of exchanges of its own. -/
def perform (token : String) : (r : Cache.Request) → Exchange r.Result
  | .get key => get key
  | .set e => set e
  | .setMany es => setMany es
  | .delete keys => delete keys
  | .increment key => increment key
  | .expire key d => expire key d
  | .ttl key => ttl key
  | .acquire cacheKey expiry tries => acquire ⟨cacheKey, token, expiry⟩ tries
  | .release lock => release lock
  | .isHeld cacheKey => isHeld cacheKey

end Exchange

end Redis

end AccountCache
