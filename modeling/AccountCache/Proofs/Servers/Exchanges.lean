import AccountCache.Proofs.Servers.Commands
import AccountCache.Proofs.Servers.Counters
import AccountCache.Proofs.Store.Ideal
import AccountCache.Redis.Link

namespace AccountCache

namespace Redis

open Cache (Entry Error IdealStore Lock MemoryStore Request Stored horizon)

variable {α : Type} {server : Server} {i : IdealStore} {now later : Instant} {key token : String} {r : Request}

def kept (e : Stored) : Kept := ⟨e.value, e.deadline⟩

theorem filter_kept (found : Option Stored) :
    (found.map kept).filter (Server.lasts now) = (found.filter fun e => !e.isExpired now).map kept := by
  cases found with
  | none => rfl
  | some e =>
    have same : Server.lasts now (kept e) = !e.isExpired now := rfl
    cases expired : e.isExpired now <;> simp [Option.filter_some, same, expired]

theorem filter_filter_of_imp {p q : α → Bool} (weaker : ∀ a, q a = true → p a = true) (found : Option α) :
    (found.filter p).filter q = found.filter q := by
  rw [Option.filter_filter]
  congr 1
  funext a
  cases holds : q a with
  | false => rw [Bool.and_false]
  | true => rw [weaker a holds, Bool.and_true]

theorem isExpired_of_le (order : now ≤ later) (e : Stored) (there : (!e.isExpired later) = true) :
    (!e.isExpired now) = true := by
  rw [Bool.not_eq_true', Bool.eq_false_iff] at there ⊢
  exact fun expired => there (Stored.isExpired_of_le order expired)

theorem find?_left_of_le (order : now ≤ later) :
    (i.left later).find? key = ((i.left now).find? key).filter fun e => !e.isExpired later := by
  rw [IdealStore.find?_left, IdealStore.find?_left, filter_filter_of_imp (isExpired_of_le order)]

theorem Server.find?_of_le (order : now ≤ later) :
    server.find? later key = (server.find? now key).filter (lasts later) :=
  (filter_filter_of_imp (fun e : Kept => isExpired_of_le order ⟨e.value, e.deadline⟩) _).symm

namespace Server

/-- Whether a server is idle, and finds at a moment what is left of an ideal
store. The two agree from exchange to exchange and not only when an
operation is over. -/
structure Mirrors (server : Server) (i : IdealStore) (now : Instant) : Prop where
  idle : server.Idle
  find? : ∀ key, server.find? now key = ((i.left now).find? key).map kept

namespace Mirrors

theorem left (mirrors : server.Mirrors i now) : server.Mirrors (i.left now) now where
  idle := mirrors.idle
  find? key := by rw [IdealStore.find?_left_left, mirrors.find?]

theorem wait (mirrors : server.Mirrors i now) (order : now ≤ later) : server.Mirrors i later where
  idle := mirrors.idle
  find? key := by rw [Server.find?_of_le order, mirrors.find?, filter_kept, ← find?_left_of_le order]

theorem put (mirrors : server.Mirrors i now) (at_ : String) (e : Stored) :
    (server.put at_ (kept e)).Mirrors (i.put at_ e) now where
  idle := mirrors.idle.put (kept e)
  find? key := by
    have old := mirrors.find? key
    have new : (some (kept e)).filter (lasts now) = _ := filter_kept (some e)
    rw [IdealStore.find?_left] at old
    rw [Server.find?_put, IdealStore.find?_left, IdealStore.find?_put]
    split
    · exact new
    · exact old

theorem remove (mirrors : server.Mirrors i now) (at_ : String) : (server.remove at_).Mirrors (i.erase at_) now where
  idle := mirrors.idle.remove
  find? key := by
    have old := mirrors.find? key
    rw [IdealStore.find?_left] at old
    rw [Server.find?_remove, IdealStore.find?_left, IdealStore.find?_erase]
    split
    · rfl
    · exact old

theorem removeAll (mirrors : server.Mirrors i now) (keys : List String) :
    (keys.foldl Server.remove server).Mirrors (keys.foldl IdealStore.erase i) now := by
  induction keys generalizing server i with
  | nil => exact mirrors
  | cons first rest ih => exact ih (mirrors.remove first)

end Mirrors

end Server

/-- Whether every deadline in an ideal store is at most the horizon away. -/
def Near (i : IdealStore) (now : Instant) : Prop :=
  ∀ key e deadline, (i.left now).find? key = some e → e.deadline = some deadline → deadline ≤ now.after horizon

/-- Whether the lifetimes in a request are such as both a server and a clock
take: of a write from one second to a million million, of a lock in whole
milliseconds, and no longer either. -/
def Sendable : Request → Prop
  | .set e => 0 < e.seconds ∧ e.seconds ≤ 1000000000000
  | .setMany entries => ∀ e ∈ entries, 0 < e.seconds ∧ e.seconds ≤ 1000000000000
  | .expire _ ttl => ttl ≤ .ofSeconds 1000000000000
  | .acquire _ expiry _ => ∃ n, 0 < n ∧ n ≤ 1000000000000000 ∧ expiry = .ofMillis n
  | _ => True

/-- Whether an operation, with a server and an ideal store left as they are
at a moment, is done with the answer that the ideal store has to a request,
or has done nothing yet and goes on like that, whatever else happens to the
two. The server keeps the release script, once it has it. -/
def Proceeds (token : String) (r : Request) :
    Program wire (Except Error r.Result) → Server → IdealStore → Instant → Prop
  | .done outcome, server, i, now =>
    outcome.toOption = ((i.left now).serve now token r).1.toOption ∧
      server.Mirrors ((i.left now).serve now token r).2 now
  | .ask cs next, server, i, now =>
    server.Mirrors i now ∧ ∀ (server' : Server) (i' : IdealStore) (later : Instant),
      (server.knowsRelease = true → server'.knowsRelease = true) → server'.Mirrors i' later → Near i' later →
        Proceeds token r (next (.ok (server'.serveAll later cs).1)) (server'.serveAll later cs).2 i' later

theorem Proceeds.ended {p : Program wire (Except Error r.Result)} {outcome answer : Except Error r.Result}
    {i' : IdealStore} (ends : p = .done outcome) (answered : (i.left now).serve now token r = (answer, i'))
    (same : outcome.toOption = answer.toOption) (mirrors : server.Mirrors i' now) :
    Proceeds token r p server i now := by
  rw [ends, Proceeds, answered]
  exact ⟨same, mirrors⟩

namespace Exchange

variable {read : Reply → Option α} {reply : Reply} {a : α}

theorem expect_of_some (reads : read reply = some a) : expect read reply = pure a := by
  rw [expect, reads]

variable {f : Reply → Exchange r.Result}

def goOn (f : Reply → Exchange α) : Except Error (List Reply) → Program wire (Except Error α)
  | .ok replies =>
    match replies.getLast? with
    | some reply => (f reply).run
    | none => .done (.error .backend)
  | .error e => .done (.error e)

theorem run_send_bind (cs : List Command) (f : Reply → Exchange α) : (send cs >>= f).run = .ask cs (goOn f) := by
  refine congrArg (Program.ask (I := wire) cs) (funext fun replies => ?_)
  cases replies with
  | error e => rfl
  | ok replies =>
    show (ExceptT.bindCont f =<< ExceptT.run (match replies.getLast? with
      | some reply => pure reply
      | none => backendError)) = goOn f (.ok replies)
    rw [goOn]
    cases replies.getLast? with
    | none => rfl
    | some reply => rfl

/-- An exchange of one command proceeds if what follows the command's reply
does, at whatever moment it comes. -/
theorem proceeds_send {c : Command} (single : c ≠ .multi) (mirrors : server.Mirrors i now)
    (follows : ∀ (server' : Server) (i' : IdealStore) (later : Instant),
      (server.knowsRelease = true → server'.knowsRelease = true) → server'.Mirrors i' later → Near i' later →
        Proceeds token r (f (server'.run later c).1).run (server'.run later c).2 i' later) :
    Proceeds token r (send [c] >>= f).run server i now := by
  rw [run_send_bind]
  refine ⟨mirrors, fun server' i' later known mirrors' near => ?_⟩
  rw [mirrors'.idle.serveAll single]
  exact follows server' i' later known mirrors' near

/-- A transaction proceeds if what follows the replies to its
commands does. -/
theorem proceeds_transaction {cs : List Command} (plain : ∀ c ∈ cs, c.IsInner) (mirrors : server.Mirrors i now)
    (follows : ∀ (server' : Server) (i' : IdealStore) (later : Instant), server'.Mirrors i' later → Near i' later →
      Proceeds token r (f (.array (server'.runAll later cs).1)).run (server'.runAll later cs).2 i' later) :
    Proceeds token r (send (.multi :: cs ++ [.exec]) >>= f).run server i now := by
  rw [run_send_bind]
  refine ⟨mirrors, fun server' i' later _ mirrors' near => ?_⟩
  rw [mirrors'.idle.serveAll_transaction plain, goOn, List.getLast?_concat]
  exact follows server' i' later mirrors' near

theorem proceeds_get (mirrors : server.Mirrors i now) :
    Proceeds token (.get key) (Exchange.get key).run server i now := by
  have plain : ∀ c ∈ [Command.isPresent key, .get key], c.IsInner := by simp [Command.IsInner]
  refine proceeds_transaction plain mirrors fun server i now mirrors _ => ?_
  have found := mirrors.find? key
  cases present : (i.left now).find? key with
  | none =>
    have ran : server.runAll now [.isPresent key, .get key] = ([.integer 0, .nil], server) := by
      simp [Server.runAll, mirrors.idle.runOrForced, Server.run, found, present]
    have answered : (i.left now).serve now token (.get key) = (.ok none, i.left now) := by
      simp [IdealStore.serve, present]
    rw [ran]
    exact .ended rfl answered rfl mirrors.left
  | some e =>
    have ran : server.runAll now [.isPresent key, .get key] = ([.integer 1, .bulk e.value], server) := by
      simp [Server.runAll, mirrors.idle.runOrForced, Server.run, found, present, kept]
    have answered : (i.left now).serve now token (.get key) = (.ok (some e.value), i.left now) := by
      simp [IdealStore.serve, present]
    rw [ran]
    exact .ended rfl answered rfl mirrors.left

theorem proceeds_set {e : Entry} (lives : Server.isLifetime e.seconds = true) (mirrors : server.Mirrors i now) :
    Proceeds token (.set e) (Exchange.set e).run server i now := by
  refine proceeds_send (by simp) mirrors fun server i now _ mirrors _ => ?_
  simp only [Server.run, if_pos lives]
  exact ⟨rfl, mirrors.left.put e.key ⟨e.value, _⟩⟩

theorem runAll_writes {entries : List Entry} (lives : ∀ e ∈ entries, Server.isLifetime e.seconds = true)
    (mirrors : server.Mirrors i now) :
    (server.runAll now (entries.map fun e => .setEx e.key e.value e.seconds)).1 = entries.map (fun _ => .status "OK") ∧
      (server.runAll now (entries.map fun e => .setEx e.key e.value e.seconds)).2.Mirrors
        (entries.foldl (·.write now) i) now := by
  induction entries generalizing server i with
  | nil => exact ⟨rfl, mirrors⟩
  | cons e rest ih =>
    obtain ⟨head, tail⟩ := List.forall_mem_cons.1 lives
    have wrote := mirrors.put e.key ⟨e.value, some (now.after (.ofSeconds e.seconds))⟩
    obtain ⟨replies, after⟩ := ih tail wrote
    have step : server.run now (.setEx e.key e.value e.seconds) =
        (.status "OK", server.put e.key (kept ⟨e.value, some (now.after (.ofSeconds e.seconds))⟩)) := by
      rw [Server.run, if_pos head, kept]
    rw [List.map_cons, mirrors.idle.runAll_cons, step, List.map_cons, replies]
    exact ⟨rfl, after⟩

theorem proceeds_setMany {entries : List Entry} (lives : ∀ e ∈ entries, Server.isLifetime e.seconds = true)
    (mirrors : server.Mirrors i now) :
    Proceeds token (.setMany entries) (Exchange.setMany entries).run server i now := by
  rw [Exchange.setMany]
  cases entries with
  | nil => exact ⟨rfl, mirrors.left⟩
  | cons first rest =>
    have plain : ∀ c ∈ (first :: rest).map fun e => Command.setEx e.key e.value e.seconds, c.IsInner := by
      simp [Command.IsInner]
    refine proceeds_transaction plain mirrors fun server i now mirrors _ => ?_
    obtain ⟨replies, after⟩ := runAll_writes lives mirrors.left
    have fine : ((first :: rest).map fun _ => Reply.status "OK").any Reply.isError = false := by
      simp [Reply.isError]
    rw [replies, expect_of_some (a := ())]
    · exact ⟨rfl, after⟩
    · simp only [Reply.writes?, fine, Bool.false_eq_true, if_false]

theorem proceeds_delete {keys : List String} (mirrors : server.Mirrors i now) :
    Proceeds token (.delete keys) (Exchange.delete keys).run server i now := by
  rw [Exchange.delete]
  cases keys with
  | nil => exact ⟨rfl, mirrors.left⟩
  | cons first rest =>
    refine proceeds_send (by simp) mirrors fun server i now _ mirrors _ => ?_
    exact ⟨rfl, mirrors.left.removeAll (first :: rest)⟩

theorem proceeds_increment (mirrors : server.Mirrors i now) :
    Proceeds token (.increment key) (Exchange.increment key).run server i now := by
  refine proceeds_send (by simp) mirrors fun server i now _ mirrors _ => ?_
  have found := mirrors.find? key
  cases present : (i.left now).find? key with
  | none =>
    have ran : server.run now (.incrBy key 1) = (.integer 1, server.put key (kept ⟨.ofText "1", none⟩)) := by
      simp [Server.run, found, present, kept]
      rfl
    have answered : (i.left now).serve now token (.increment key) =
        (.ok 1, (i.left now).put key ⟨.ofText "1", none⟩) := by
      simp only [IdealStore.serve, IdealStore.increment, present]
    rw [ran]
    exact .ended rfl answered rfl (mirrors.left.put key _)
  | some e =>
    cases number : MemoryStore.counter? e.value with
    | none =>
      have ran : server.run now (.incrBy key 1) = (Server.notAnInteger, server) := by
        have unread : e.value.text?.bind int64? = none := number
        simp only [Server.run, found, present, Option.map_some, kept, unread]
      have answered : (i.left now).serve now token (.increment key) = (.error (.notAnInteger key), i.left now) := by
        simp only [IdealStore.serve, IdealStore.increment, present, number]
      rw [ran]
      exact .ended rfl answered rfl mirrors.left
    | some n =>
      have reads : e.value.text?.bind int64? = some n := number
      obtain ⟨lower, upper⟩ := MemoryStore.counter?_bounds number
      by_cases greatest : n = maxInt64
      · have ran : server.run now (.incrBy key 1) = (Server.notAnInteger, server) := by
          have beyond : n + 1 < minInt64 ∨ maxInt64 < n + 1 := by omega
          simp only [Server.run, found, present, Option.map_some, kept, reads, if_pos beyond]
        have answered : (i.left now).serve now token (.increment key) = (.error (.overflow key), i.left now) := by
          simp only [IdealStore.serve, IdealStore.increment, present, number, if_pos greatest]
        rw [ran]
        exact .ended rfl answered rfl mirrors.left
      · have ran : server.run now (.incrBy key 1) =
            (.integer (n + 1), server.put key (kept ⟨.ofText (toString (n + 1)), e.deadline⟩)) := by
          have within : ¬(n + 1 < minInt64 ∨ maxInt64 < n + 1) := by omega
          simp only [Server.run, found, present, Option.map_some, kept, reads, if_neg within]
        have answered : (i.left now).serve now token (.increment key) =
            (.ok (n + 1), (i.left now).put key ⟨.ofText (toString (n + 1)), e.deadline⟩) := by
          simp only [IdealStore.serve, IdealStore.increment, present, number, if_neg greatest]
        rw [ran]
        exact .ended rfl answered rfl (mirrors.left.put key _)

theorem proceeds_expire {ttl : Duration} (bound : ttl ≤ .ofSeconds 1000000000000) (mirrors : server.Mirrors i now) :
    Proceeds token (.expire key ttl) (Exchange.expire key ttl).run server i now := by
  have same : wrapInt64 ttl.seconds = ttl.seconds := by
    simp only [Duration.le_def, Duration.ofSeconds, Duration.nanos_ofNanos, Duration.maxNanos] at bound
    simp only [wrapInt64, Duration.seconds]
    exact Int.bmod_eq_of_le (by omega) (by omega)
  have second : ttl < .ofSeconds 1 ↔ ttl.seconds = 0 := by
    simp only [Duration.lt_def, Duration.ofSeconds, Duration.nanos_ofNanos, Duration.seconds, Duration.maxNanos]
    omega
  refine proceeds_send (by simp) mirrors fun server i now _ mirrors _ => ?_
  have found := mirrors.find? key
  rw [same]
  cases present : (i.left now).find? key with
  | none =>
    have ran : server.run now (.expire key ttl.seconds) = (.integer 0, server) := by
      simp [Server.run, found, present]
    have answered : (i.left now).serve now token (.expire key ttl) = (.ok false, i.left now) := by
      simp only [IdealStore.serve, IdealStore.expire, present]
    rw [ran]
    exact .ended rfl answered rfl mirrors.left
  | some e =>
    by_cases short : ttl.seconds = 0
    · have ran : server.run now (.expire key ttl.seconds) = (.integer 1, server.remove key) := by
        simp [Server.run, found, present, short]
      have answered : (i.left now).serve now token (.expire key ttl) = (.ok true, (i.left now).erase key) := by
        simp only [IdealStore.serve, IdealStore.expire, present, if_pos (second.2 short)]
      rw [ran]
      exact .ended rfl answered rfl (mirrors.left.remove key)
    · have ran : server.run now (.expire key ttl.seconds) =
          (.integer 1, server.put key (kept ⟨e.value, some (now.after (.ofSeconds ttl.seconds))⟩)) := by
        have positive : ¬(ttl.seconds : Int) ≤ 0 := by omega
        simp only [Server.run, found, present, Option.map_some, if_neg positive, Int.toNat_natCast, kept]
      have answered : (i.left now).serve now token (.expire key ttl) =
          (.ok true, (i.left now).put key ⟨e.value, some (now.after (.ofSeconds ttl.seconds))⟩) := by
        have long : ¬ttl < .ofSeconds 1 := fun less => short (second.1 less)
        simp only [IdealStore.serve, IdealStore.expire, present, if_neg long]
      rw [ran]
      exact .ended rfl answered rfl (mirrors.left.put key _)

theorem proceeds_ttl (mirrors : server.Mirrors i now) :
    Proceeds token (.ttl key) (Exchange.ttl key).run server i now := by
  refine proceeds_send (by simp) mirrors fun server i now _ mirrors near => ?_
  have found := mirrors.find? key
  have reply : server.run now (.ttl key) = (.integer ((i.left now).ttl now key), server) := by
    simp only [Server.run, found, IdealStore.ttl]
    cases present : (i.left now).find? key with
    | none => rfl
    | some e =>
      cases deadline : e.deadline with
      | none => simp only [Option.map_some, kept, deadline]
      | some moment =>
        have bound := near key e moment present deadline
        simp only [horizon, Instant.le_def, Instant.after, Duration.ofSeconds, Duration.nanos_ofNanos,
          Duration.maxNanos] at bound
        have left : (moment.since now).nanos = moment.nanos - now.nanos := by
          simp only [Instant.since, Duration.nanos_ofNanos, Duration.maxNanos]
          omega
        simp only [Option.map_some, kept, deadline, Server.secondsLeft, Duration.millis, left]
  rw [reply]
  exact ⟨rfl, mirrors.left⟩

section Locks

variable {cacheKey : String} {expiry : Duration} {tries : Nat}

/-- A lock that is free is granted at once. If it is taken, the next attempt
is what matters. -/
theorem proceeds_attempt (lives : Server.isLifetime (lockMillis expiry) = true)
    (whole : Duration.ofMillis (lockMillis expiry) = expiry) (mirrors : server.Mirrors i now) (n : Nat)
    (again : ∀ (server' : Server) (i' : IdealStore) (later : Instant) (e : Stored), server'.Mirrors i' later →
      (i'.left later).find? (Key.lock cacheKey) = some e →
        Proceeds token (.acquire cacheKey expiry tries) (tryAcquire ⟨cacheKey, token, expiry⟩ n).run server' i'
          later) :
    Proceeds token (.acquire cacheKey expiry tries) (tryAcquire ⟨cacheKey, token, expiry⟩ (n + 1)).run server i
      now := by
  refine proceeds_send (by simp) mirrors fun server i now _ mirrors _ => ?_
  have found := mirrors.find? (Key.lock cacheKey)
  have allowed : ¬(!Server.isLifetime (lockMillis expiry)) = true := by simp [lives]
  cases present : (i.left now).find? (Key.lock cacheKey) with
  | none =>
    have ran : server.run now (.setNew (Key.lock cacheKey) token (lockMillis expiry)) =
        (.status "OK", server.put (Key.lock cacheKey) (kept ⟨.ofText token, some (now.after expiry)⟩)) := by
      have free : ¬(server.find? now (Key.lock cacheKey)).isSome = true := by simp [found, present]
      rw [Server.run, if_neg allowed, if_neg free, whole, kept]
    have answered : (i.left now).serve now token (.acquire cacheKey expiry tries) =
        (.ok (some ⟨cacheKey, token, expiry⟩),
          (i.left now).put (Key.lock cacheKey) ⟨.ofText token, some (now.after expiry)⟩) := by
      simp only [IdealStore.serve, IdealStore.acquire, Lock.key, present]
    simp only [Lock.key, ran]
    exact .ended rfl answered rfl (mirrors.left.put _ _)
  | some e =>
    have ran : server.run now (.setNew (Key.lock cacheKey) token (lockMillis expiry)) = (.nil, server) := by
      have taken : (server.find? now (Key.lock cacheKey)).isSome = true := by simp [found, present]
      rw [Server.run, if_neg allowed, if_pos taken]
    simp only [Lock.key, ran]
    exact again server i now e mirrors present

theorem proceeds_tryAcquire (lives : Server.isLifetime (lockMillis expiry) = true)
    (whole : Duration.ofMillis (lockMillis expiry) = expiry) (mirrors : server.Mirrors i now) (n : Nat) :
    Proceeds token (.acquire cacheKey expiry tries) (tryAcquire ⟨cacheKey, token, expiry⟩ (n + 1)).run server i
      now := by
  induction n generalizing server i now with
  | zero =>
    refine proceeds_attempt lives whole mirrors 0 fun server i now e mirrors present => ?_
    have answered : (i.left now).serve now token (.acquire cacheKey expiry tries) = (.ok none, i.left now) := by
      simp only [IdealStore.serve, IdealStore.acquire, Lock.key, present]
    exact .ended rfl answered rfl mirrors.left
  | succ n ih => exact proceeds_attempt lives whole mirrors (n + 1) fun server i now _ mirrors _ => ih mirrors

/-- On a server that knows the script, running it is all there is
to a release. -/
theorem run_runRelease (lock : Lock) (token : String) (known : server.knowsRelease = true)
    (mirrors : server.Mirrors i now) :
    ∃ held : Bool, (server.run now (.runRelease lock.key lock.token)).1 = .integer (if held then 1 else 0) ∧
      ((i.left now).serve now token (.release lock)).1 = .ok held ∧
      (server.run now (.runRelease lock.key lock.token)).2.Mirrors
        ((i.left now).serve now token (.release lock)).2 now := by
  have found := mirrors.find? lock.key
  have ready : ¬(!server.knowsRelease) = true := by simp [known]
  have same : (server.find? now lock.key).any (·.value == .ofText lock.token) = true ↔
      ((i.left now).find? lock.key).map (·.value) = some (.ofText lock.token) := by
    rw [found]
    cases (i.left now).find? lock.key with
    | none => simp
    | some e => simp [kept]
  simp only [Server.run, if_neg ready, same, IdealStore.serve, IdealStore.release]
  by_cases holds : ((i.left now).find? lock.key).map (·.value) = some (.ofText lock.token)
  · simp only [if_pos holds]
    exact ⟨true, rfl, rfl, mirrors.left.remove lock.key⟩
  · simp only [if_neg holds]
    exact ⟨false, rfl, rfl, mirrors.left⟩

/-- The script is loaded only once nobody has done so, and is not forgotten
until it is run. -/
theorem proceeds_release {lock : Lock} (mirrors : server.Mirrors i now) :
    Proceeds token (.release lock) (Exchange.release lock).run server i now := by
  refine proceeds_send (by simp) mirrors fun server i now _ mirrors _ => ?_
  cases known : server.knowsRelease with
  | true =>
    obtain ⟨held, replied, answered, after⟩ := run_runRelease lock token known mirrors
    rw [replied]
    cases held with
    | true => exact .ended rfl (Prod.ext answered rfl) rfl after
    | false => exact .ended rfl (Prod.ext answered rfl) rfl after
  | false =>
    have ran : server.run now (.runRelease lock.key lock.token) = (.error "NOSCRIPT No matching script", server) := by
      simp [Server.run, known]
    have refused : (Reply.error "NOSCRIPT No matching script").isErrorOf "NOSCRIPT" = true := by decide
    rw [ran, if_pos refused]
    refine proceeds_send (by simp) mirrors fun server i now _ mirrors _ => ?_
    have loaded : ({ server with knowsRelease := true }).Mirrors i now :=
      ⟨⟨mirrors.idle.queue, mirrors.idle.forced⟩, mirrors.find?⟩
    refine proceeds_send (by simp) loaded fun server i now known mirrors _ => ?_
    obtain ⟨held, replied, answered, after⟩ := run_runRelease lock token (known rfl) mirrors
    rw [replied]
    cases held with
    | true => exact .ended rfl (Prod.ext answered rfl) rfl after
    | false => exact .ended rfl (Prod.ext answered rfl) rfl after

end Locks

theorem proceeds_isHeld {cacheKey : String} (mirrors : server.Mirrors i now) :
    Proceeds token (.isHeld cacheKey) (Exchange.isHeld cacheKey).run server i now := by
  refine proceeds_send (by simp) mirrors fun server i now _ mirrors _ => ?_
  have found := mirrors.find? (Key.lock cacheKey)
  cases present : (i.left now).find? (Key.lock cacheKey) with
  | none =>
    have ran : server.run now (.isPresent (Key.lock cacheKey)) = (.integer 0, server) := by
      simp [Server.run, found, present]
    have answered : (i.left now).serve now token (.isHeld cacheKey) = (.ok false, i.left now) := by
      simp [IdealStore.serve, present]
    rw [ran]
    exact .ended rfl answered rfl mirrors.left
  | some e =>
    have ran : server.run now (.isPresent (Key.lock cacheKey)) = (.integer 1, server) := by
      simp [Server.run, found, present]
    have answered : (i.left now).serve now token (.isHeld cacheKey) = (.ok true, i.left now) := by
      simp [IdealStore.serve, present]
    rw [ran]
    exact .ended rfl answered rfl mirrors.left

theorem isLifetime_of_le {n : Nat} (positive : 0 < n) (bound : n ≤ 1000000000000000) :
    Server.isLifetime n = true := by
  rw [Server.isLifetime, Bool.and_eq_true, decide_eq_true_eq, decide_eq_true_eq, maxInt64]
  omega

theorem lockMillis_ofMillis {n : Nat} (positive : 0 < n) (bound : n ≤ 1000000000000000) :
    lockMillis (.ofMillis n) = n := by
  have millis : (Duration.ofMillis n).millis = n := by
    simp only [Duration.millis, Duration.ofMillis, Duration.nanos_ofNanos, Duration.maxNanos]
    omega
  rw [lockMillis, millis, Nat.max_eq_left positive]
  exact Nat.mod_eq_of_lt (by omega)

/-- An operation, from its beginning: it does what an ideal store does at
the moment of its last exchange, and nothing before. -/
theorem proceeds_perform (token : String) {r : Request} (sendable : Sendable r) (mirrors : server.Mirrors i now) :
    Proceeds token r (perform token r).run server i now := by
  cases r with
  | get key => exact proceeds_get mirrors
  | set e => exact proceeds_set (isLifetime_of_le sendable.1 (by have := sendable.2; omega)) mirrors
  | setMany entries =>
    refine proceeds_setMany (fun e member => ?_) mirrors
    have bounds := sendable e member
    exact isLifetime_of_le bounds.1 (by omega)
  | delete keys => exact proceeds_delete mirrors
  | increment key => exact proceeds_increment mirrors
  | expire key ttl => exact proceeds_expire sendable mirrors
  | ttl key => exact proceeds_ttl mirrors
  | acquire cacheKey expiry tries =>
    obtain ⟨n, positive, bound, rfl⟩ := sendable
    obtain ⟨more, attempts⟩ : ∃ more, max tries 1 = more + 1 := ⟨max tries 1 - 1, by omega⟩
    have sent := lockMillis_ofMillis positive bound
    rw [perform, acquire, attempts]
    exact proceeds_tryAcquire (by rw [sent]; exact isLifetime_of_le positive bound) (by rw [sent]) mirrors more
  | release lock => exact proceeds_release mirrors
  | isHeld cacheKey => exact proceeds_isHeld mirrors

theorem bounded_of_sendable {r : Request} (sendable : Sendable r) : r.Bounded := by
  cases r with
  | set e =>
    have := sendable.2
    show e.seconds ≤ 9000000000000000
    omega
  | setMany entries =>
    intro e member
    have := (sendable e member).2
    omega
  | expire key ttl =>
    have bound : ttl ≤ .ofSeconds 1000000000000 := sendable
    show ttl ≤ horizon
    simp only [horizon, Duration.le_def, Duration.ofSeconds, Duration.nanos_ofNanos, Duration.maxNanos] at bound ⊢
    omega
  | acquire cacheKey expiry tries =>
    obtain ⟨n, _, bound, rfl⟩ := sendable
    show Duration.ofMillis n ≤ horizon
    simp only [horizon, Duration.le_def, Duration.ofMillis, Duration.ofSeconds, Duration.nanos_ofNanos,
      Duration.maxNanos]
    omega
  | _ => trivial

end Exchange

end Redis

end AccountCache
