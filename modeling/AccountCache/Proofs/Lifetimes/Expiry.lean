import AccountCache.Proofs.Lifetimes.Conduct
import AccountCache.Proofs.Refreshing.TwoRefreshes

namespace AccountCache

open Cache (nilBytes Stored MemoryStore)
open Simulation (World Event Timed Circumstances Runs)

def Session.expiresAt (s : Session) : TokenType → Timestamp
  | .access => s.accessTokenExpiredAt
  | .refresh => s.refreshTokenExpiredAt

namespace Simulation.World

variable {w w' : World} {key : String} {x : Stored}

theorem isExpired_of_cached? (live : w.cached? key = some x) : x.isExpired w.clock = false := by
  obtain ⟨values, _, live⟩ := Option.bind_eq_some_iff.1 live
  obtain ⟨_, fresh⟩ := Option.filter_eq_some_iff.1 live
  exact (Bool.not_eq_eq_eq_not.1 fresh)

theorem Reliable.cached?_of_set (reliable : w.Reliable) {e : Cache.Entry} {answer : (Effect.cache (.set e)).Answer}
    (answers : w.Answers (.cache (.set e)) answer w') (live : w'.cached? key = some x) :
    w.cached? key = some x ∨ x = MemoryStore.written w.clock e := by
  obtain ⟨_, _, values, view, answered, view'⟩ := reliable.answers_values answers rfl
  simp only [MemoryStore.serve, MemoryStore.set] at answered view'
  cases wrote : (values.maybeSweep w.clock).insert? w.clock e with
  | none => simp [wrote] at answered
  | some values' =>
    simp only [wrote] at view'
    obtain rfl := MemoryStore.eq_of_insert? wrote
    rw [view', MemoryStore.live?_put, MemoryStore.live?_maybeSweep, ← view] at live
    split at live
    · split at live
      · cases live
      · exact .inr (Option.some.inj live).symm
    · exact .inl live

/-- What is cached under a token after a request that spares tokens was
cached before, or is the mark for a missing row. -/
theorem Reliable.cached?_of_sparesTokens (reliable : w.Reliable) {e : Effect} {answer : e.Answer}
    (answers : w.Answers e answer w') (spares : e.SparesTokens) :
    w'.Reliable ∧ ∀ text x, w'.cached? (Key.token text) = some x →
      w.cached? (Key.token text) = some x ∨ x.value = nilBytes := by
  cases e with
  | cache r =>
    refine ⟨reliable.cache answers, fun text x live => ?_⟩
    cases spares with
    | look looks => exact .inl ((reliable.look looks answers (.token text)).symm.trans live)
    | drop =>
      rw [reliable.delete answers] at live
      split at live
      · cases live
      · exact .inl live
    | mark => exact (reliable.cached?_of_set answers live).imp_right fun same => by rw [same]; rfl
    | away others => exact .inl ((reliable.cached?_eq answers (others text)).symm.trans live)
  | database r =>
    obtain ⟨kept, entries, _⟩ := answers.of_database
    exact ⟨kept reliable, fun text x live => .inl ((entries (Key.token text)).symm.trans live)⟩
  | _ =>
    rw [answers.eq_of_isQuiet trivial]
    exact ⟨reliable, fun _ _ => .inl⟩

end Simulation.World

namespace Accounts

/-- One of the times that a client cached a session under one of its
tokens. The wall clock was read some time before, and the copy is written
some time after. -/
structure Caching (ι : Type) where
  client : ι
  session : Session
  type : TokenType
  /-- When the wall clock was read for the life that is left
  to the token. -/
  read : Instant
  /-- What it showed. -/
  now : Timestamp
  /-- When the session was written to the cache. -/
  written : Instant

variable {ι : Type}

namespace Caching

variable (x : Caching ι)

def expiry : Timestamp := x.session.expiresAt x.type

/-- The life that was left to the token. -/
def left : Duration := x.expiry.remaining x.now

def entry (a : Accounts) (bytes : Bytes) : Cache.Entry :=
  a.cache.entry ⟨Key.token (x.session.token x.type), bytes, x.left⟩

/-- From when on the session is gone from under the token. -/
def deadline (a : Accounts) : Instant := x.written.after (.ofSeconds (x.entry a nilBytes).seconds)

def Happened (a : Accounts) (log : List (Instant × Event ι)) : Prop :=
  x.read ≤ x.written ∧ (x.read, ⟨x.client, .wallClock, x.now⟩) ∈ log ∧
    ∃ bytes entries answer, Storable.encode? x.session = some bytes ∧ x.entry a bytes ∈ entries ∧
      (x.written, ⟨x.client, .cache (.setMany entries), answer⟩) ∈ log

variable {x} {a : Accounts} {log log' : List (Instant × Event ι)}

theorem Happened.mono (happened : x.Happened a log) (longer : log ⊆ log') : x.Happened a log' := by
  obtain ⟨order, read, bytes, entries, answer, encoded, member, wrote⟩ := happened
  exact ⟨order, longer read, bytes, entries, answer, encoded, member, longer wrote⟩

/-- Before the deadline a token that had a second to live or more has not
expired, but for the time that passed until it was cached. -/
theorem isAfter_of_lt_deadline {epoch : Timestamp} {now : Instant} (early : now < x.deadline a)
    (shown : x.now = epoch.advance x.read.nanos) (order : x.read ≤ x.written) (lives : x.left.seconds ≠ 0) :
    (x.expiry.advance (x.written.nanos - x.read.nanos)).isAfter (epoch.advance now.nanos) = true := by
  have whole : (x.entry a nilBytes).seconds = x.left.seconds := if_neg lives
  rw [deadline, whole, Instant.lt_def, Instant.after] at early
  rw [left, Timestamp.remaining, shown] at early lives
  simp only [Timestamp.advance, Duration.seconds, Duration.ofSeconds, Duration.nanos_ofNanos, Duration.maxNanos,
    Instant.le_def] at early lives order
  refine decide_eq_true ?_
  show epoch.nanos + now.nanos < x.expiry.nanos + (x.written.nanos - x.read.nanos : Nat)
  omega

theorem deadline_of_brief (brief : x.left.seconds = 0) :
    x.deadline a = x.written.after (.ofSeconds a.cache.policy.defaultTtl.seconds) := by
  have usual : (x.entry a nilBytes).seconds = a.cache.policy.defaultTtl.seconds := if_pos brief
  rw [deadline, usual]

end Caching

/-- What is cached of a session under a token lives as long as the token,
from one of the readings of the wall clock on. -/
theorem eq_of_mem_sessionItems {s : Session} {bytes : Bytes} {now later : Timestamp} {item : Cache.Item}
    {text : String} (member : item ∈ sessionItems s bytes now later) (own : item.key = Key.token text) :
    ∃ type, s.token type = text ∧ ∃ reading, (reading = now ∨ reading = later) ∧
      item = ⟨Key.token (s.token type), bytes, (s.expiresAt type).remaining reading⟩ := by
  simp only [sessionItems, List.mem_cons, List.not_mem_nil, or_false] at member
  rcases member with rfl | rfl | rfl
  · exact ⟨.access, Datum.token.inj (Datum.key_injective (a := .token _) (b := .token _) own), now, .inl rfl, rfl⟩
  · cases Datum.key_injective (a := .session s.id) (b := .token text) own
  · exact ⟨.refresh, Datum.token.inj (Datum.key_injective (a := .token _) (b := .token _) own), later, .inr rfl, rfl⟩

/-- What is true at all times of what clients have read from the wall clock
and of what is cached under tokens: every copy of a session there comes from
a caching that happened, and lives no longer than that one says. -/
structure Timely (a : Accounts) (world : World) (log : List (Instant × Event ι)) (w : World)
    (readings : ι → List Timestamp) : Prop where
  reliable : w.Reliable
  epoch : w.epoch = world.epoch
  heard : ∀ i, ∀ now ∈ readings i, ∃ moment ≤ w.clock, now = world.epoch.advance moment.nanos ∧
    (moment, ⟨i, .wallClock, now⟩) ∈ log
  entries : ∀ text e, w.cached? (Key.token text) = some e → e.value = nilBytes ∨
    ∃ x : Caching ι, x.session.token x.type = text ∧ x.Happened a log ∧ x.written ≤ w.clock ∧
      x.now = world.epoch.advance x.read.nanos ∧ e.deadline = some (x.deadline a)

namespace Timely

variable {a : Accounts} {world w w' : World} {log log' : List (Instant × Event ι)} {readings : ι → List Timestamp}

/-- As long as nothing is cached under tokens but marks for missing rows,
this stays so. -/
theorem mono (h : Timely a world log w readings) (reliable : w'.Reliable) (epoch : w'.epoch = w.epoch)
    (order : w.clock ≤ w'.clock) (longer : log ⊆ log')
    (origin : ∀ text e, w'.cached? (Key.token text) = some e → w.cached? (Key.token text) = some e ∨
      e.value = nilBytes) : Timely a world log' w' readings where
  reliable := reliable
  epoch := epoch.trans h.epoch
  heard i now member := by
    obtain ⟨moment, before, shown, read⟩ := h.heard i now member
    exact ⟨moment, Instant.le_trans before order, shown, longer read⟩
  entries text e live := by
    rcases origin text e live with live | mark
    · rcases h.entries text e live with mark | ⟨x, own, happened, before, shown, ends⟩
      · exact .inl mark
      · exact .inr ⟨x, own, happened.mono longer, Instant.le_trans before order, shown, ends⟩
    · exact .inl mark

variable [DecidableEq ι] {i : ι}

theorem read (h : Timely a world log w readings) (now : Timestamp) (shown : now = w.wallClock) :
    Timely a world ((w.clock, ⟨i, .wallClock, now⟩) :: log) w
      (Function.update readings i (now :: readings i)) := by
  have longer : Timely a world ((w.clock, ⟨i, .wallClock, now⟩) :: log) w readings :=
    h.mono h.reliable rfl (Instant.le_refl _) (List.subset_cons_self ..) fun _ _ => .inl
  refine { longer with heard := fun j now' member => ?_ }
  by_cases same : j = i
  · subst same
    rw [Function.update_self] at member
    rcases List.mem_cons.1 member with rfl | before
    · exact ⟨w.clock, Instant.le_refl _, by rw [shown, World.wallClock, h.epoch], List.mem_cons_self ..⟩
    · exact longer.heard j now' before
  · rw [Function.update_of_ne same] at member
    exact longer.heard j now' member

omit [DecidableEq ι] in
theorem cache (h : Timely a world log w readings) {s : Session} {bytes : Bytes} {now later : Timestamp}
    (encoded : Storable.encode? s = some bytes) (first : now ∈ readings i) (second : later ∈ readings i)
    {answer : (Effect.cache (.setMany ((sessionItems s bytes now later).map a.cache.entry))).Answer}
    (answers : w.Answers (.cache (.setMany ((sessionItems s bytes now later).map a.cache.entry))) answer w') :
    Timely a world ((w.clock, ⟨i, .cache (.setMany ((sessionItems s bytes now later).map a.cache.entry)), answer⟩) ::
      log) w' readings := by
  obtain ⟨clock, epoch⟩ := answers.clock_eq
  have order : w.clock ≤ w'.clock := clock ▸ Instant.le_refl _
  have longer : Timely a world ((w.clock, ⟨i, .cache (.setMany ((sessionItems s bytes now later).map a.cache.entry)),
      answer⟩) :: log) w readings :=
    h.mono h.reliable rfl (Instant.le_refl _) (List.subset_cons_self ..) fun _ _ => .inl
  refine { longer with
    reliable := h.reliable.cache answers
    epoch := epoch.trans h.epoch
    heard := fun j now' member => ?_
    entries := fun text e live => ?_ }
  · obtain ⟨moment, before, told⟩ := longer.heard j now' member
    exact ⟨moment, Instant.le_trans before order, told⟩
  · rcases h.reliable.setMany answers live with ⟨before, _⟩ | ⟨_, member, own, rfl⟩
    · refine (longer.entries text e before).imp_right ?_
      rintro ⟨x, own, happened, before, told⟩
      exact ⟨x, own, happened, Instant.le_trans before order, told⟩
    · obtain ⟨item, listed, rfl⟩ := List.mem_map.1 member
      obtain ⟨type, same, reading, known, rfl⟩ := eq_of_mem_sessionItems listed own
      have known : reading ∈ readings i := by
        rcases known with rfl | rfl
        · exact first
        · exact second
      obtain ⟨moment, before, shown, read⟩ := longer.heard i reading known
      exact .inr ⟨⟨i, s, type, moment, reading, w.clock⟩, same,
        ⟨before, read, bytes, _, answer, encoded, member, List.mem_cons_self ..⟩, order, shown, rfl⟩

/-- Whatever an operation does by its rule keeps this so. Only a write under
a token adds a caching to those that are known. -/
theorem step (h : Timely a world log w readings) {e : Effect} {answer : e.Answer} (answers : w.Answers e answer w')
    {known : List Timestamp} (move : Timekeeping a (readings i) e answer known) :
    Timely a world ((w.clock, ⟨i, e, answer⟩) :: log) w' (Function.update readings i known) := by
  cases move with
  | read =>
    cases answers
    exact h.read _ rfl
  | cache encoded first second =>
    rw [Function.update_eq_self]
    exact h.cache encoded first second answers
  | spare spares =>
    rw [Function.update_eq_self]
    obtain ⟨clock, epoch⟩ := answers.clock_eq
    obtain ⟨reliable, origin⟩ := h.reliable.cached?_of_sparesTokens answers spares
    exact h.mono reliable epoch (clock ▸ Instant.le_refl _) (List.subset_cons_self ..) origin

end Timely

variable [DecidableEq ι] {a : Accounts} {c : Circumstances} {mayPass : World → Instant → Prop} {world w w' : World}
  {log : List (Instant × Event ι)} {commands : ι → Command} {ps : ι → Action Unit} {text : String}

theorem exists_timely (run : Timed mayPass world (fun i => (commands i).perform a) log w ps)
    (reliable : world.Reliable) (uncached : ∀ text, world.cached? (Key.token text) = none) :
    ∃ readings, Timely a world log w readings := by
  have start : Timely a world ([] : List (Instant × Event ι)) world fun _ => [] := {
    reliable
    epoch := rfl
    heard := fun _ _ => nofun
    entries := fun text e live => by
      rw [uncached] at live
      cases live }
  have wait : ∀ {log w readings later}, Timely a world (ι := ι) log w readings → mayPass w later →
      Timely a world log (w.advanceTo later) readings := fun h _ =>
    h.mono (h.reliable.advanceTo _) rfl (Instant.le_max_left ..) (List.Subset.refl _) fun _ _ live =>
      .inl (World.cached?_of_advanceTo live)
  have conform : ∀ i, ((commands i).perform a).Conforms (Timekeeping a) (fun _ _ => True) [] :=
    fun i => (commands i).keeps []
  obtain ⟨readings, now, _⟩ := run.invariant (fun log w readings => Timely a world log w readings)
    (fun _ => Timekeeping a) (fun _ => []) start conform wait fun h answers => h.step answers
  exact ⟨readings, now⟩

/-- Whatever clients do side by side, a token is known only if one of them
has cached a session under it, and no longer than that copy lives: until the
token expires, but for the time from when the wall clock was read until the
copy was written; or, if the token had less than a second to live by that
clock, for the lifetime of items that bring none of their own. -/
theorem known_until_expiry (run : Timed mayPass world (fun i => (commands i).perform a) log w ps)
    (reliable : world.Reliable) (uncached : ∀ text, world.cached? (Key.token text) = none)
    (known : Runs c (a.checkToken text) w true w') :
    ∃ x : Caching ι, x.session.token x.type = text ∧ x.Happened a log ∧ x.written ≤ w'.clock ∧
      (x.left.seconds ≠ 0 →
        (x.expiry.advance (x.written.nanos - x.read.nanos)).isAfter w'.wallClock = true) ∧
      (x.left.seconds = 0 → w'.clock < x.written.after (.ofSeconds a.cache.policy.defaultTtl.seconds)) := by
  obtain ⟨readings, now⟩ := exists_timely run reliable uncached
  obtain ⟨later, e, live, present, answers⟩ := exists_live_of_checkToken now.reliable known
  obtain ⟨clock, epoch⟩ := answers.clock_eq
  rcases now.entries text e (World.cached?_of_advanceTo live) with mark | ⟨x, own, happened, before, shown, ends⟩
  · exact absurd mark present
  · have early : w'.clock < x.deadline a := by
      rw [clock]
      exact Cache.Stored.isExpired_eq_false_iff.1 (World.isExpired_of_cached? live) _ ends
    have order : x.written ≤ w'.clock := by
      rw [clock]
      exact Instant.le_trans before (Instant.le_max_left ..)
    have same : w'.epoch = world.epoch := epoch.trans now.epoch
    refine ⟨x, own, happened, order, fun lives => ?_, fun brief => ?_⟩
    · rw [World.wallClock, same]
      exact Caching.isAfter_of_lt_deadline early shown happened.1 lives
    · rwa [Caching.deadline_of_brief brief] at early

set_option maxRecDepth 4000 in
/-- A session is created, and its access token is known after a quarter of
the hour that it lives. -/
theorem known_until_expiry_after_creation : ∃ (a : Accounts) (log : List (Instant × Event Unit)) (w : World)
    (ps : Unit → Action Unit) (w' : World),
    Timed (fun _ _ => True) {} (fun _ => (Command.createSession
      ⟨1, .zero, "a", "r", ⟨3600000000000, 0⟩, ⟨7200000000000, 0⟩, "", "", .epoch, .epoch⟩).perform a) log w ps ∧
    Runs ⟨False, fun _ => False, False⟩ (a.checkToken "a") w true w' ∧
    ∃ x : Caching Unit, x.session.token x.type = "a" ∧ x.Happened a log ∧ x.written ≤ w'.clock ∧
      (x.left.seconds ≠ 0 →
        (x.expiry.advance (x.written.nanos - x.read.nanos)).isAfter w'.wallClock = true) ∧
      (x.left.seconds = 0 → w'.clock < x.written.after (.ofSeconds a.cache.policy.defaultTtl.seconds)) := by
  have fresh := @Timed.start Unit _ _ (fun _ _ => True) {} fun _ => (Command.createSession
    ⟨1, .zero, "a", "r", ⟨3600000000000, 0⟩, ⟨7200000000000, 0⟩, "", "", .epoch, .epoch⟩).perform
      ⟨default, ⟨5, .ofSeconds 60⟩⟩
  have created := fresh.step () rfl (.database _)
  have now := created.step () rfl .wallClock
  have later := now.step () rfl .wallClock
  have cached : Timed _ _ _ (_ :: _) _ _ := later.step () rfl (.cache rfl)
  have waited : Timed _ _ _ _ (World.advanceTo _ ⟨900000000000⟩) _ := cached.wait trivial
  refine ⟨_, _, _, _, Exists.imp (fun w' known => ⟨waited, known, known_until_expiry waited ⟨⟨_, _, rfl⟩, fun _ => rfl⟩
    (fun _ => rfl) known⟩) ⟨_, runs_checkToken_of_cached False.elim rfl ?_ rfl⟩⟩
  have faithful := Session.faithful
    (s := ⟨1, .zero, "a", "r", ⟨3600000000000, 0⟩, ⟨7200000000000, 0⟩, "", "", .epoch, .epoch⟩) (by decide) (by decide)
  exact faithful.ne_nilBytes rfl rfl

set_option maxRecDepth 4000 in
/-- Not every token is void once it has expired: one that has expired before
its session was cached is known for a while. -/
theorem token_outlives_expiry : ¬∀ (a : Accounts) (s : Session) (type : TokenType) (world : World)
    (log : List (Instant × Event Unit)) (w w' : World) (ps : Unit → Action Unit),
    s.accessToken ≠ s.refreshToken → Storable.encode? s ≠ none → world.Reliable →
    (∀ text, world.cached? (Key.token text) = none) →
    Timed (fun _ _ => True) world (fun _ => (Command.createSession s).perform a) log w ps →
    Runs ⟨False, fun _ => False, False⟩ (a.checkToken (s.token type)) w true w' →
    (s.expiresAt type).isAfter w'.wallClock = true := by
  intro void
  have fresh := @Timed.start Unit _ _ (fun _ _ => True) { epoch := ⟨7200000000000, 0⟩ } fun _ =>
    (Command.createSession ⟨1, .zero, "a", "r", ⟨3600000000000, 0⟩, ⟨3600000000000, 0⟩, "", "", .epoch, .epoch⟩).perform
      ⟨default, ⟨5, .ofSeconds 60⟩⟩
  have created := fresh.step () rfl (.database _)
  have now := created.step () rfl .wallClock
  have later := now.step () rfl .wallClock
  have cached : Timed _ _ _ (_ :: _) _ _ := later.step () rfl (.cache rfl)
  have early := fun w' known => void _ _ .access _ _ _ w' _ (by decide) (by exact Option.some_ne_none _)
    ⟨⟨_, _, rfl⟩, fun _ => rfl⟩ (fun _ => rfl) cached known
  refine absurd (early _ (runs_checkToken_of_cached False.elim rfl ?_ rfl)) (by decide)
  have faithful := Session.faithful
    (s := ⟨1, .zero, "a", "r", ⟨3600000000000, 0⟩, ⟨3600000000000, 0⟩, "", "", .epoch, .epoch⟩) (by decide) (by decide)
  exact faithful.ne_nilBytes rfl rfl

end Accounts

end AccountCache
