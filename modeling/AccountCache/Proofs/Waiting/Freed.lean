import AccountCache.Proofs.Sequential.Calm
import AccountCache.Proofs.Limits.Runs
import AccountCache.Proofs.Locking.Leaks
import AccountCache.Proofs.Waiting.Budget

namespace AccountCache

open Program (Conforms Minds)
open Simulation (World)
open Simulation.World (Answers)

/-- An exchange, and the world in which the request was made. -/
structure Seen extends Exchange effects where
  world : World

def Exchange.StartsAt (t : Instant) : Exchange effects → Prop
  | ⟨.clock last, reading⟩ => last = .start → reading.1 = t
  | _ => True

namespace Simulation.World

variable {w w' : World} {key : String}

/-- Whether the lock of a key is held before some moment and
free after it. -/
def HeldUntil (w : World) (key : String) (freed : Instant) : Prop :=
  (w.clock < freed → w.guard? key ≠ none) ∧ (freed < w.clock → w.guard? key = none)

/-- At the very moment a lock may be held still or free already. -/
theorem heldUntil_of_eq {freed : Instant} (now : w.clock = freed) : w.HeldUntil key freed := by
  subst now
  exact ⟨fun early => absurd early (Nat.lt_irrefl _), fun late => absurd late (Nat.lt_irrefl _)⟩

theorem Reliable.probe (reliable : w.Reliable) {answer : (Effect.cache (.isHeld key)).Answer}
    (answers : w.Answers (.cache (.isHeld key)) answer w') :
    w'.Reliable ∧ answer = .ok (w.guard? key).isSome ∧ w'.guard? key = w.guard? key := by
  obtain ⟨reliable', _, _, same⟩ := reliable.isHeld answers
  obtain ⟨_, _, locks, view, answered, _⟩ := reliable.answers_locks answers rfl
  refine ⟨reliable', ?_, same⟩
  rw [view]
  exact (Option.some.inj answered).symm

/-- A lock that is free stays so as time passes. -/
theorem guard?_advanceTo_of_free (free : w.guard? key = none) (later : Instant) :
    (w.advanceTo later).guard? key = none := by
  cases live : (w.advanceTo later).guard? key with
  | none => rfl
  | some guard => exact free ▸ (guard?_of_advanceTo live).symm

end Simulation.World

namespace Cache

/-- What a caller may come to who wants a value or the right to compute it,
what it asked and heard, the latest first, and the world by then, where the
lock of the key is held before some moment and free after it. The others ask
for anything, but no one else takes the lock once it is free. Calls take no
time, so that time passes only while the caller sleeps, and it is awake by
the next whole millisecond. If the lock becomes free at the very deadline,
then before the caller looks at it. -/
inductive Awaits (m : Manager) (key : String) (freed : Instant) (world : World) :
    List Seen → World → Action (Except Error Lookup) → Prop
  | start : Awaits m key freed world [] world (m.getOrLock key)
  | own {log w e next answer w'} : Awaits m key freed world log w (.ask e next) →
    (e.isProbe = true → w.clock = world.clock.after m.policy.waitBudget → w.guard? key = none) →
    w.Answers e answer w' → Awaits m key freed world (⟨⟨e, answer⟩, w⟩ :: log) w' (next answer)
  | crash {log w r next} : Awaits m key freed world log w (.ask (.cache r) next) → (w.serveCache r).1 = none →
    Awaits m key freed world log (w.serveCache r).2 Action.overflow
  | other {log w e next} (number : Nat) (r : Request) : Awaits m key freed world log w (.ask e next) →
    ((w.numbered number).serveCache r).2.HeldUntil key freed →
    (w.guard? key = none → ((w.numbered number).serveCache r).2.guard? key = none) →
    Awaits m key freed world log ((w.numbered number).serveCache r).2 (.ask e next)
  | wait {log w wake next} (later : Instant) : Awaits m key freed world log w (.ask (.sleep wake) next) →
    later ≤ wake.roundUp → (w.advanceTo later).HeldUntil key freed →
    Awaits m key freed world log (w.advanceTo later) (.ask (.sleep wake) next)

variable {m : Manager} {key : String} {freed deadline : Instant} {world w w' : World} {log : List Seen}
  {q : Action (Except Error Lookup)}

/-- Whether a caller looked at the cache at some moment, and what it saw. -/
def Looked (key : String) (log : List Seen) (now : Instant) (saw : Option Stored) : Prop :=
  ∃ x ∈ log, x.request = .cache (.get key) ∧ x.world.clock = now ∧ x.world.cached? key = saw

theorem Looked.cons {now : Instant} {saw : Option Stored} (looked : Looked key log now saw) (x : Seen) :
    Looked key (x :: log) now saw :=
  have ⟨y, member, rest⟩ := looked
  ⟨y, List.mem_cons_of_mem x member, rest⟩

/-- Whether a caller ends as it should: with the value that was live when it
looked, at this very moment, or else with the lock, which it holds. -/
def Settled (key : String) (log : List Seen) (w : World) (result : Except Error Lookup) : Prop :=
  (∃ e, Looked key log w.clock (some e) ∧ result = .ok (.hit (.ofBytes e.value))) ∨
    (Looked key log w.clock none ∧ ∃ lock guard, result = .ok (.owner lock) ∧ lock.cacheKey = key ∧
      w.guard? key = some guard ∧ guard.value = .ofText lock.token)

/-- Whoever looks at the cache gets what is live, or goes on, and then there
was nothing. -/
theorem settled_of_get (reliable : w.Reliable) {answer : (Effect.cache (.get key)).Answer}
    (answers : w.Answers (.cache (.get key)) answer w') (miss : Stage) :
    (∃ result, miss.afterGet answer = .ended result ∧
        Settled key (⟨⟨.cache (.get key), answer⟩, w⟩ :: log) w' result) ∨
      miss.afterGet answer = miss ∧ Looked key (⟨⟨.cache (.get key), answer⟩, w⟩ :: log) w'.clock none ∧
        w'.Reliable ∧ w'.guard? key = w.guard? key := by
  have clock := answers.clock_eq.1
  obtain ⟨reliable', told, _, guard⟩ := reliable.get answers
  have looked : Looked key (⟨⟨.cache (.get key), answer⟩, w⟩ :: log) w'.clock (w.cached? key) :=
    ⟨_, List.mem_cons_self .., rfl, clock.symm, rfl⟩
  subst told
  cases found : w.cached? key with
  | some e =>
    rw [found] at looked
    exact .inl ⟨_, rfl, .inl ⟨e, looked, rfl⟩⟩
  | none =>
    rw [found] at looked
    exact .inr ⟨rfl, looked, reliable', guard⟩

/-- Whoever has seen no value and tries for the lock gets it if it is free,
or goes on. -/
theorem settled_of_acquire (reliable : w.Reliable) (looked : Looked key log w.clock none) {answer : (Effect.cache
    (.acquire key m.policy.lockDuration m.policy.lockTries)).Answer}
    (answers : w.Answers (.cache (.acquire key m.policy.lockDuration m.policy.lockTries)) answer w')
    (onContended : Stage) :
    (∃ result, onContended.afterAcquire answer = .ended result ∧ Settled key
        (⟨⟨.cache (.acquire key m.policy.lockDuration m.policy.lockTries), answer⟩, w⟩ :: log) w' result) ∨
      onContended.afterAcquire answer = onContended ∧ w.guard? key ≠ none ∧ w'.Reliable ∧
        w'.guard? key = w.guard? key := by
  have clock := answers.clock_eq.1
  have lasting : m.policy.lockDuration.nanos ≠ 0 := (Policy.problem?_eq_none m.usable).2.2
  obtain ⟨reliable', _, ⟨guard, rfl, held, held'⟩ | ⟨lock, guard, rfl, own, _, held, token⟩⟩ :=
    reliable.acquire answers lasting
  · exact .inr ⟨rfl, by simp [held], reliable', held'.trans held.symm⟩
  · exact .inl ⟨_, rfl, .inr ⟨clock ▸ looked.cons _, lock, guard, rfl, own, held, token⟩⟩

/-- Whether it is no later than the first whole millisecond by which a
caller has noticed. -/
def InTime (freed deadline now : Instant) : Prop :=
  now ≤ (freed.after (.ofMillis 200)).roundUp ∧ now ≤ deadline.roundUp

/-- What a caller who stands somewhere has learnt of the time and
of the lock. -/
def Stage.Watches (key : String) (freed deadline : Instant) (world : World) (log : List Seen) (w : World) :
    Stage → Prop
  | outside | lost => w.clock = world.clock
  | missed => w.clock = world.clock ∧ Looked key log w.clock none
  | probing started last => started = world.clock ∧ last = w.clock
  | looking started last => started = world.clock ∧ last = w.clock ∧ w.guard? key = none
  | trying started last =>
    started = world.clock ∧ last = w.clock ∧ w.guard? key = none ∧ Looked key log w.clock none
  | checking started last => started = world.clock ∧ last = w.clock ∧ w.clock ≤ freed ∧ w.clock < deadline
  | resting started last _ => started = world.clock ∧ last ≤ freed ∧ last < deadline
  | late .. | reporting _ | ended _ => False

/-- What is true of a caller on its way, who stands somewhere: how late it
is, whether the lock is held, how many requests it has made, and what it
has learnt. -/
structure Underway (m : Manager) (key : String) (freed : Instant) (world : World) (log : List Seen) (w : World)
    (s : Stage) : Prop where
  reliable : w.Reliable
  order : world.clock ≤ w.clock
  held : w.HeldUntil key freed
  inTime : InTime freed (world.clock.after m.policy.waitBudget) w.clock
  counted : ∃ looks, s.Counted m log.length looks
  watches : s.Watches key freed (world.clock.after m.policy.waitBudget) world log w

namespace Underway

variable {s s' : Stage} {e : Effect} {answer : e.Answer} {later : Instant}

theorem next (underway : Underway m key freed world log w s) (step : Stage.Step m key s e answer s')
    (reliable : w'.Reliable) (clock : w'.clock = w.clock) (guard : w'.guard? key = w.guard? key)
    (watches : s'.Watches key freed (world.clock.after m.policy.waitBudget) world (⟨⟨e, answer⟩, w⟩ :: log) w') :
    Underway m key freed world (⟨⟨e, answer⟩, w⟩ :: log) w' s' ∧ (w.guard? key = none → w'.guard? key = none) := by
  obtain ⟨_, order, held, inTime, ⟨looks, counted⟩, _⟩ := underway
  refine ⟨⟨reliable, clock ▸ order, ?_, clock ▸ inTime, ⟨_, counted.step step⟩, watches⟩, guard.trans⟩
  rw [World.HeldUntil, clock, guard]
  exact held

/-- A caller who asks for something is led on, and the lock stays free if it
was, or comes to an end. -/
theorem step (underway : Underway m key freed world log w s) (soon : freed ≤ world.clock.after m.policy.waitBudget)
    (step : Stage.Step m key s e answer s')
    (due : e.isProbe = true → w.clock = world.clock.after m.policy.waitBudget → w.guard? key = none)
    (answers : w.Answers e answer w') :
    (Underway m key freed world (⟨⟨e, answer⟩, w⟩ :: log) w' s' ∧ (w.guard? key = none → w'.guard? key = none)) ∨
      ∃ result, s' = .ended result ∧ Settled key (⟨⟨e, answer⟩, w⟩ :: log) w' result := by
  have clock := answers.clock_eq.1
  have same := fun reliable => underway.next step reliable clock
  obtain ⟨reliable, _, held, _, _, watches⟩ := underway
  cases step with
  | outside answer =>
    rcases settled_of_get reliable answers .missed with ends | ⟨missed, looked, reliable', guard⟩
    · exact .inr ends
    · rw [missed] at same ⊢
      exact .inl (same reliable' guard ⟨clock.trans watches, looked⟩)
  | missed answer =>
    obtain ⟨now, looked⟩ := watches
    rcases settled_of_acquire reliable looked answers .lost with ends | ⟨contended, _, reliable', guard⟩
    · exact .inr ends
    · rw [contended] at same ⊢
      exact .inl (same reliable' guard (clock.trans now))
  | lost reading =>
    cases answers with
    | clock =>
      have present : max Instant.start w.clock = w.clock := Instant.max_start _
      exact .inl (same reliable rfl ⟨present.trans watches, present⟩)
  | @probing started last answer =>
    obtain ⟨rfl, rfl⟩ := watches
    obtain ⟨reliable', rfl, guard⟩ := reliable.probe answers
    cases found : w.guard? key with
    | none =>
      rw [found] at same guard
      exact .inl (same reliable' guard ⟨rfl, clock.symm, guard⟩)
    | some e =>
      -- The lock is held still, so that the moment at which it is free is yet to come, and so is the deadline.
      have locked : w.guard? key ≠ none := by simp [found]
      have early : w.clock ≤ freed := Instant.not_lt.1 fun passed => locked (held.2 passed)
      have before : w.clock < world.clock.after m.policy.waitBudget :=
        Instant.lt_of_le_of_ne (Instant.le_trans early soon) fun last => locked (due rfl last)
      rw [found] at same guard
      exact .inl (same reliable' guard ⟨rfl, clock.symm, clock ▸ early, clock ▸ before⟩)
  | @looking started last answer =>
    obtain ⟨rfl, rfl, free⟩ := watches
    rcases settled_of_get reliable answers (.trying world.clock w.clock) with ends | ⟨missed, looked, reliable', guard⟩
    · exact .inr ends
    · rw [missed] at same ⊢
      exact .inl (same reliable' guard ⟨rfl, clock.symm, guard.trans free, looked⟩)
  | @trying started last answer =>
    obtain ⟨rfl, rfl, free, looked⟩ := watches
    rcases settled_of_acquire reliable looked answers (.checking world.clock w.clock) with ends | ⟨_, locked, _⟩
    · exact .inr ends
    · exact absurd free locked
  | @checking started last reading =>
    obtain ⟨rfl, rfl, early, soon⟩ := watches
    cases answers with
    | clock =>
      have present : max w.clock w.clock = w.clock := Instant.max_eq_right (Instant.le_refl _)
      refine .inl (same reliable rfl ?_)
      simp only [present, if_neg (Instant.not_le.2 soon)]
      exact ⟨rfl, early, soon⟩
  | draw drawn =>
    cases answers with
    | draw => exact .inl (same reliable rfl watches)
  | @sleep started last drawn delay woken =>
    cases answers with
    | sleep => exact .inl (same reliable rfl ⟨watches.1, rfl⟩)
  | late | report => exact watches.elim

/-- The first reading of the clock shows when a caller started. No time has
passed until then, for the caller has not slept. -/
theorem startsAt (underway : Underway m key freed world log w s) (step : Stage.Step m key s e answer s')
    (answers : w.Answers e answer w') : Exchange.StartsAt world.clock ⟨e, answer⟩ := by
  have order := underway.order
  have watches := underway.watches
  cases answers with
  | clock last =>
    rintro rfl
    have present : max Instant.start w.clock = w.clock := Instant.max_start _
    refine present.trans ?_
    cases step with
    | lost => exact watches
    | checking =>
      obtain ⟨_, now, _⟩ := watches
      rw [← now] at order ⊢
      exact (Instant.eq_start_of_le order).symm
    | late => exact watches.elim
  | _ => trivial

theorem other (underway : Underway m key freed world log w s) (number : Nat) (r : Request)
    (held : ((w.numbered number).serveCache r).2.HeldUntil key freed)
    (free : w.guard? key = none → ((w.numbered number).serveCache r).2.guard? key = none) :
    Underway m key freed world log ((w.numbered number).serveCache r).2 s := by
  obtain ⟨reliable, order, _, inTime, counted, watches⟩ := underway
  have clock : ((w.numbered number).serveCache r).2.clock = w.clock := World.clock_serveCache _ r
  refine ⟨(reliable.numbered number).served r, clock ▸ order, held, clock ▸ inTime, counted, ?_⟩
  cases s with
  | outside | lost => exact clock.trans watches
  | missed => exact ⟨clock.trans watches.1, clock ▸ watches.2⟩
  | probing => exact ⟨watches.1, watches.2.trans clock.symm⟩
  | looking => exact ⟨watches.1, watches.2.1.trans clock.symm, free watches.2.2⟩
  | trying => exact ⟨watches.1, watches.2.1.trans clock.symm, free watches.2.2.1, clock ▸ watches.2.2.2⟩
  | checking => exact ⟨watches.1, watches.2.1.trans clock.symm, clock ▸ watches.2.2⟩
  | resting | late | reporting | ended => exact watches

/-- A caller who sleeps is awake in time. -/
theorem wait (underway : Underway m key freed world log w s) {wake : Instant}
    {woken : (Effect.sleep wake).Answer} (step : Stage.Step m key s (.sleep wake) woken s')
    (awake : later ≤ wake.roundUp) (held : (w.advanceTo later).HeldUntil key freed) :
    Underway m key freed world log (w.advanceTo later) s := by
  obtain ⟨reliable, order, _, inTime, counted, watches⟩ := underway
  have onward : w.clock ≤ (w.advanceTo later).clock := Instant.le_max_left ..
  cases step with
  | @sleep started last drawn delay =>
    obtain ⟨rfl, early, before⟩ := watches
    obtain ⟨short, within⟩ := Manager.wake_le delay before
    have shorter := Instant.le_trans short (Instant.after_mono early (.ofMillis 200))
    have inTime' : InTime freed (world.clock.after m.policy.waitBudget) later :=
      ⟨Instant.le_trans awake (Instant.roundUp_mono shorter), Instant.le_trans awake (Instant.roundUp_mono within)⟩
    exact ⟨reliable.advanceTo later, Instant.le_trans order onward, held, Instant.max_of inTime inTime', counted,
      rfl, early, before⟩

/-- A caller whose request is not answered has seen no value, and tries for
a lock whose end the clock does not have. -/
theorem crash (underway : Underway m key freed world log w s) {r : Request} {answer : (Effect.cache r).Answer}
    (step : Stage.Step m key s (.cache r) answer s') (crashed : (w.serveCache r).1 = none) :
    w.clock.add? m.policy.lockDuration = none ∧ Looked key log w.clock none := by
  have unanswered : ¬∀ d ∈ r.lifetimes, ∃ ends, w.clock.add? d = some ends := by
    intro ends
    obtain ⟨answer, _, answers⟩ := underway.reliable.exists_answer ends
    cases answers with
    | cache answered => cases crashed.symm.trans answered
  have endless : r.lifetimes = [m.policy.lockDuration] → w.clock.add? m.policy.lockDuration = none := fun only =>
    Option.eq_none_iff_forall_ne_some.2 fun ends found =>
      unanswered (only ▸ List.forall_mem_singleton.2 ⟨ends, found⟩)
  have watches := underway.watches
  cases step with
  | outside | probing | looking => exact absurd (fun _ => nofun) unanswered
  | missed => exact ⟨endless rfl, watches.2⟩
  | trying => exact ⟨endless rfl, watches.2.2.2⟩

end Underway

/-- A caller who has come to an end is done, unless the clock did not have a
moment that it needed. -/
theorem eq_done_of_conforms {known : Exchange effects → Prop} {result : Except Error Lookup}
    (conforms : q.Conforms (Stage.Step m key) (fun s result => s = .ended result) (.ended result))
    (minds : q.Minds known (· ≠ .overflow)) : q = .done result := by
  cases q with
  | done found =>
    cases conforms
    rfl
  | ask e next =>
    obtain ⟨answer, _⟩ := Effect.exists_takes minds.1 .start
    obtain ⟨_, step, _⟩ := conforms answer
    cases step

/-- A wait that starts when it is bound to have a deadline does not break
off for want of one. -/
theorem minds_of_ends (ends : world.clock.add? m.policy.waitBudget = some deadline) (key : String) :
    (m.getOrLock key).Minds (Exchange.StartsAt world.clock) (· ≠ .overflow) := by
  refine Manager.minds_getOrLock (m := m) ⟨fun _ _ => id, fun reading starts none => ?_, ?_, ?_, ?_, ?_⟩ key
  · rw [starts rfl, ends] at none
    cases none
  all_goals exact fun _ => nofun

/-- How a caller fares: it is on its way, or it has come to an end as it
should, or it broke off for want of a moment at which the lock would end
that it tries for. There is no fourth way. -/
inductive Fares (m : Manager) (key : String) (freed : Instant) (world : World) (log : List Seen) (w : World) :
    Action (Except Error Lookup) → Prop
  | underway {s q} : Underway m key freed world log w s →
    q.Conforms (Stage.Step m key) (fun s result => s = .ended result) s →
    q.Minds (Exchange.StartsAt world.clock) (· ≠ .overflow) → Fares m key freed world log w q
  | settled {result} : InTime freed (world.clock.after m.policy.waitBudget) w.clock →
    log.length ≤ 8 * m.roundsOf + 4 → Settled key log w result → Fares m key freed world log w (.done result)
  | broken : InTime freed (world.clock.after m.policy.waitBudget) w.clock → log.length ≤ 8 * m.roundsOf + 4 →
    w.clock.add? m.policy.lockDuration = none → Looked key log w.clock none →
    Fares m key freed world log w Action.overflow

namespace Fares

variable {e : Effect} {next : e.Answer → Action (Except Error Lookup)} {answer : e.Answer} {later : Instant}

theorem within (fares : Fares m key freed world log w q) :
    InTime freed (world.clock.after m.policy.waitBudget) w.clock ∧ log.length ≤ 8 * m.roundsOf + 4 := by
  cases fares with
  | underway underway =>
    obtain ⟨_, counted⟩ := underway.counted
    exact ⟨underway.inTime, counted.le⟩
  | settled inTime few | broken inTime few => exact ⟨inTime, few⟩

/-- A free lock stays free until a caller is done. -/
theorem own (fares : Fares m key freed world log w (.ask e next))
    (soon : freed ≤ world.clock.after m.policy.waitBudget)
    (due : e.isProbe = true → w.clock = world.clock.after m.policy.waitBudget → w.guard? key = none)
    (answers : w.Answers e answer w') : Fares m key freed world (⟨⟨e, answer⟩, w⟩ :: log) w' (next answer) ∧
      (w.guard? key = none → w'.guard? key = none ∨ ∃ result, next answer = .done result) := by
  cases fares with
  | underway underway conforms minds =>
    obtain ⟨s', step, rest⟩ := conforms answer
    have minds' := minds.2 answer (underway.startsAt step answers)
    rcases underway.step soon step due answers with ⟨underway', free⟩ | ⟨result, rfl, settled⟩
    · exact ⟨.underway underway' rest minds', fun before => .inl (free before)⟩
    · obtain ⟨_, counted⟩ := underway.counted
      rw [eq_done_of_conforms rest minds']
      refine ⟨.settled ?_ (counted.step step).le settled, fun _ => .inr ⟨result, rfl⟩⟩
      exact answers.clock_eq.1 ▸ underway.inTime
  | broken => exact answer.elim

theorem crash {r : Request} {next : (Effect.cache r).Answer → Action (Except Error Lookup)}
    (fares : Fares m key freed world log w (.ask (.cache r) next)) (crashed : (w.serveCache r).1 = none) :
    Fares m key freed world log (w.serveCache r).2 Action.overflow := by
  have clock := World.clock_serveCache w r
  cases fares with
  | underway underway conforms minds =>
    obtain ⟨_, step, _⟩ := conforms (.error .pool)
    obtain ⟨_, counted⟩ := underway.counted
    obtain ⟨none, looked⟩ := underway.crash step crashed
    exact .broken (clock ▸ underway.inTime) counted.le (clock ▸ none) (clock ▸ looked)

theorem other (fares : Fares m key freed world log w (.ask e next)) (number : Nat) (r : Request)
    (held : ((w.numbered number).serveCache r).2.HeldUntil key freed)
    (free : w.guard? key = none → ((w.numbered number).serveCache r).2.guard? key = none) :
    Fares m key freed world log ((w.numbered number).serveCache r).2 (.ask e next) := by
  have clock : ((w.numbered number).serveCache r).2.clock = w.clock := World.clock_serveCache _ r
  cases fares with
  | underway underway conforms minds => exact .underway (underway.other number r held free) conforms minds
  | broken inTime few none looked => exact .broken (clock ▸ inTime) few (clock ▸ none) (clock ▸ looked)

theorem wait {wake : Instant} {next : (Effect.sleep wake).Answer → Action (Except Error Lookup)}
    (fares : Fares m key freed world log w (.ask (.sleep wake) next)) (awake : later ≤ wake.roundUp)
    (held : (w.advanceTo later).HeldUntil key freed) :
    Fares m key freed world log (w.advanceTo later) (.ask (.sleep wake) next) := by
  cases fares with
  | underway underway conforms minds =>
    obtain ⟨_, step, _⟩ := conforms ⟨wake, Instant.le_refl wake⟩
    exact .underway (underway.wait step awake held) conforms minds

end Fares

namespace Awaits

theorem go {e : Effect} {next : e.Answer → Action (Except Error Lookup)} {answer : e.Answer}
    (run : Awaits m key freed world log w (.ask e next)) (other : e.isProbe = false) (answers : w.Answers e answer w') :
    Awaits m key freed world (⟨⟨e, answer⟩, w⟩ :: log) w' (next answer) :=
  run.own (fun probe => absurd probe (Bool.eq_false_iff.1 other)) answers

/-- A caller who has lost the lock begins to wait, while others go about
their business. -/
theorem begin (run : Awaits m key freed world log w (m.wait key)) (number : Nat) (r : Request)
    (held : ((w.numbered number).serveCache r).2.HeldUntil key freed)
    (free : w.guard? key = none → ((w.numbered number).serveCache r).2.guard? key = none)
    (ends : w.clock.add? m.policy.waitBudget = some deadline) : ∃ log, Awaits m key freed world log
      ((w.numbered number).serveCache r).2 (m.awaitOwner key w.clock deadline w.clock 0) := by
  have started := (run.other number r held free).go rfl (.clock .start)
  have now : ((w.numbered number).serveCache r).2.clock = w.clock := World.clock_serveCache _ r
  have present : max Instant.start w.clock = w.clock := Instant.max_start _
  simp only [Program.bind_done, now, present, ends] at started
  exact ⟨_, started⟩

/-- A caller who finds the lock held before its deadline goes to sleep, for
20 ms or until then. -/
theorem rest {started : Instant} (run : Awaits m key freed world log w (m.awaitOwner key started deadline w.clock 0))
    (held : (w.serveCache (.isHeld key)).1 = some (.ok true)) (early : w.clock < deadline)
    (undue : w.clock ≠ world.clock.after m.policy.waitBudget) :
    ∃ log wake next, Awaits m key freed world log (w.serveCache (.isHeld key)).2 (.ask (.sleep wake) next) ∧
      ∀ later, later ≤ w.clock.after (.ofMillis 20) → later ≤ deadline → later ≤ wake := by
  rw [Manager.awaitOwner] at run
  have clock := World.clock_serveCache w (.isHeld key)
  have present : max w.clock (w.serveCache (.isHeld key)).2.clock = w.clock := by
    rw [clock, Instant.max_eq_right (Instant.le_refl _)]
  have first : Manager.pollDelay 0 = .done ⟨_, Manager.step_pollBackoff 0⟩ := rfl
  have reading := (run.own (fun _ due => absurd due undue) (.cache held)).go rfl (.clock w.clock)
  simp only [Program.bind_done, present, dif_neg (Instant.not_le.2 early), first] at reading
  refine ⟨_, _, _, reading, fun later soon due => ?_⟩
  have least := (Manager.step_pollBackoff 0).1
  have most := (Duration.ofMillis 20).nanos_le
  simp only [Duration.le_def, Instant.le_def, Instant.after, Instant.since, Duration.nanos_min,
    Duration.nanos_ofNanos] at least soon due ⊢
  omega

/-- A caller who sleeps while the lock is free wakes in time, and it is
free still. -/
theorem wakes {wake : Instant} {next : (Effect.sleep wake).Answer → Action (Except Error Lookup)}
    (run : Awaits m key freed world log w (.ask (.sleep wake) next)) (held : w.HeldUntil key freed)
    (free : w.guard? key = none) : Awaits m key freed world log (w.advanceTo wake) (.ask (.sleep wake) next) ∧
      (w.advanceTo wake).guard? key = none ∧ ∃ answer, (w.advanceTo wake).Answers (.sleep wake) answer
        (w.advanceTo wake) := by
  have free' := World.guard?_advanceTo_of_free free wake
  have passed : freed ≤ w.clock := Instant.not_lt.1 fun early => held.1 early free
  have onward : w.clock ≤ (w.advanceTo wake).clock := Instant.le_max_left ..
  have held' : (w.advanceTo wake).HeldUntil key freed :=
    ⟨fun early => absurd early (Instant.not_lt.2 (Instant.le_trans passed onward)), fun _ => free'⟩
  exact ⟨run.wait wake (Instant.le_roundUp wake) held', free', _, .sleep (Instant.le_max_right ..)⟩

/-- Once the lock is free, a caller gets an answer to whatever it asks
for, after some sleep if need be, or breaks off. This is what an end is
proved from. -/
theorem onward {e : Effect} {next : e.Answer → Action (Except Error Lookup)}
    (run : Awaits m key freed world log w (.ask e next)) (able : e ≠ .overflow) (held : w.HeldUntil key freed)
    (free : w.guard? key = none) : (∃ w', Awaits m key freed world log w' Action.overflow) ∨
      ∃ later answer w', Awaits m key freed world log later (.ask e next) ∧ later.guard? key = none ∧
        later.Answers e answer w' := by
  cases e with
  | cache r =>
    cases answered : (w.serveCache r).1 with
    | none => exact .inl ⟨_, run.crash answered⟩
    | some answer => exact .inr ⟨w, answer, _, run, free, .cache answered⟩
  | database r => exact .inr ⟨w, _, _, run, free, .database r⟩
  | clock last => exact .inr ⟨w, _, _, run, free, .clock last⟩
  | wallClock => exact .inr ⟨w, _, _, run, free, .wallClock⟩
  | draw low high =>
    have least : low ≤ max low high := by rw [Duration.le_def, Duration.nanos_max]; omega
    exact .inr ⟨w, _, _, run, free, .draw ⟨low, Nat.le_refl _, least⟩⟩
  | sleep wake =>
    obtain ⟨run', free', answer, answers⟩ := run.wakes held free
    exact .inr ⟨_, answer, _, run', free', answers⟩
  | warn message => exact .inr ⟨w, _, _, run, free, .warn message⟩
  | overflow => exact absurd rfl able

section

variable (enabled : m.policy.disabled = false) (reliable : world.Reliable)
  (ends : world.clock.add? m.policy.waitBudget = some deadline) (held : world.HeldUntil key freed)
  (since : world.clock ≤ freed) (soon : freed ≤ deadline)

include enabled reliable ends held since soon

theorem fares (run : Awaits m key freed world log w q) : Fares m key freed world log w q := by
  obtain rfl := Instant.eq_after_of_add? ends
  induction run with
  | start =>
    have first : m.firstStage = .outside := if_neg (by simp [enabled])
    have inTime : InTime freed (world.clock.after m.policy.waitBudget) world.clock :=
      ⟨Instant.le_trans since (Instant.le_trans (Instant.le_after ..) (Instant.le_roundUp _)),
        Instant.le_trans (Instant.le_after ..) (Instant.le_roundUp _)⟩
    have outside : Underway m key freed world [] world .outside :=
      ⟨reliable, Instant.le_refl _, held, inTime, ⟨0, first ▸ Stage.counted_first m⟩, rfl⟩
    exact .underway outside (first ▸ m.stages_getOrLock) (minds_of_ends ends key)
  | own _ due answers ih => exact (ih.own soon due answers).1
  | crash _ crashed ih => exact ih.crash crashed
  | other number r _ held free ih => exact ih.other number r held free
  | wait later _ awake held ih => exact ih.wait awake held

/-- Once the lock is free, nothing keeps a caller from an end. -/
theorem halts (run : Awaits m key freed world log w q) (free : w.guard? key = none) :
    ∃ later w' q', Awaits m key freed world (later ++ log) w' q' ∧
      ((∃ result, q' = .done result) ∨ q' = Action.overflow) := by
  have fares {log w q} (run : Awaits m key freed world log w q) : Fares m key freed world log w q :=
    run.fares enabled reliable ends held since soon
  obtain rfl := Instant.eq_after_of_add? ends
  -- By induction on the number of requests that are left: there is one fewer after each.
  induction left : 8 * m.roundsOf + 4 - log.length using Nat.strongRecOn generalizing log w q with
  | ind left ih =>
    cases fares run with
    | settled => exact ⟨[], w, _, run, .inl ⟨_, rfl⟩⟩
    | broken => exact ⟨[], w, _, run, .inr rfl⟩
    | underway underway _ minds =>
      cases q with
      | done result => exact ⟨[], w, _, run, .inl ⟨result, rfl⟩⟩
      | ask e next =>
        rcases run.onward minds.1 underway.held free with ⟨w', broke⟩ | ⟨w₁, answer, w', run₁, free₁, answers⟩
        · exact ⟨[], w', _, broke, .inr rfl⟩
        · have run' := run₁.own (fun _ _ => free₁) answers
          rcases ((fares run₁).own soon (fun _ _ => free₁) answers).2 free₁ with free' | ⟨result, done⟩
          · have few := (fares run').within.2
            rw [List.length_cons] at few
            obtain ⟨later, w'', q', more, halts⟩ := ih _ (by rw [List.length_cons]; omega) run' free' rfl
            exact ⟨later ++ [⟨⟨e, answer⟩, w₁⟩], w'', q', by rwa [List.append_assoc], halts⟩
          · exact ⟨[⟨⟨e, answer⟩, w₁⟩], w', _, run', .inl ⟨result, done⟩⟩

end

end Awaits

/-- A caller waits for a lock that is held by another and becomes free, by
the deadline at the latest, and that no one else takes then. Whatever delays
are drawn and whatever the others do: the caller is done by the first whole
millisecond 200 ms after that, or after the deadline, if that is sooner, and
after a bounded number of requests. It gets the value that is live then, or
else the lock, which it holds; it breaks off only if there is no value and
the clock does not have the moment at which that lock would end. Once the
lock is free nothing keeps the caller from an end. -/
theorem freed_lock_noticed (m : Manager) (enabled : m.policy.disabled = false) (key : String)
    (reliable : world.Reliable) (ends : world.clock.add? m.policy.waitBudget = some deadline)
    (held : world.HeldUntil key freed) (since : world.clock ≤ freed) (soon : freed ≤ deadline)
    (run : Awaits m key freed world log w q) :
    InTime freed deadline w.clock ∧ log.length ≤ 8 * m.roundsOf + 4 ∧
      (∀ result, q = .done result → Settled key log w result) ∧
      (q = Action.overflow → w.clock.add? m.policy.lockDuration = none ∧ Looked key log w.clock none) ∧
      (w.guard? key = none → ∃ later w' q', Awaits m key freed world (later ++ log) w' q' ∧
        ((∃ result, q' = .done result) ∨ q' = Action.overflow)) := by
  obtain rfl := Instant.eq_after_of_add? ends
  have fares := run.fares enabled reliable ends held since soon
  refine ⟨fares.within.1, fares.within.2, ?_, ?_, run.halts enabled reliable ends held since soon⟩
  · rintro result rfl
    cases fares with
    | underway underway conforms =>
      obtain rfl := conforms
      exact underway.watches.elim
    | settled _ _ settled => exact settled
  · rintro rfl
    cases fares with
    | underway _ _ minds => exact absurd rfl minds.1
    | broken _ _ none looked => exact ⟨none, looked⟩

def locked : World := (({} : World).serveCache (.acquire "k" (.ofMillis 50) 1)).2

def heldLock : Lock := ⟨"k", ({} : World).token, .ofMillis 50⟩

/-- A caller finds the lock held and sleeps. The lock is given back
after 10 ms, and the caller is done soon after that, with a value or
with the lock. -/
theorem default_settles : ∃ log w result,
    Awaits default "k" (Instant.start.after (.ofMillis 10)) locked log w (.done result) ∧
      (∃ x ∈ log, ∃ wake, x.request = .sleep wake) ∧
      w.clock ≤ (Instant.start.after (.ofMillis 210)).roundUp ∧ Settled "k" log w result := by
  let freed : Instant := Instant.start.after (.ofMillis 10)
  have reliable : locked.Reliable := ⟨⟨_, _, rfl⟩, fun _ => rfl⟩
  have ends : Instant.start.add? (default : Manager).policy.waitBudget =
    some (Instant.start.after (.ofSeconds 15)) := by decide
  have missed := (@Awaits.start default "k" freed locked).go rfl (@Answers.cache _ _ (.ok none) rfl)
  have lost : Awaits default "k" freed locked _ _ (Manager.wait default "k") :=
    missed.go rfl (@Answers.cache _ _ (.ok none) rfl)
  obtain ⟨_, waits⟩ := lost.begin 1 (.get "k") ⟨fun _ => by decide, fun late => absurd late (by decide)⟩
    (fun free => absurd free (by decide)) ends
  obtain ⟨_, wake, _, rests, awake⟩ := waits.rest rfl (by decide) (by decide)
  -- The lock is given back in the middle of the first sleep.
  have middle := rests.wait freed (Instant.le_trans (awake freed (by decide) (by decide)) (Instant.le_roundUp wake))
    (World.heldUntil_of_eq rfl)
  obtain ⟨asleep, free, answer, answers⟩ :=
    (middle.other 1 (.release heldLock) (World.heldUntil_of_eq rfl) (fun _ => by decide)).wakes
      (World.heldUntil_of_eq rfl) (by decide)
  have heldAtFirst : locked.HeldUntil "k" freed := ⟨fun _ => by decide, fun late => absurd late (by decide)⟩
  obtain ⟨_, _, _, _, onward⟩ := freed_lock_noticed default rfl "k" reliable ends heldAtFirst (Nat.zero_le _)
    (by decide) (asleep.go rfl answers)
  obtain ⟨later, w, q, run, halts⟩ := onward free
  obtain ⟨inTime, _, settled, broke, _⟩ := freed_lock_noticed default rfl "k" reliable ends heldAtFirst (Nat.zero_le _)
    (by decide) run
  rcases halts with ⟨result, rfl⟩ | rfl
  · exact ⟨_, w, result, run, ⟨_, List.mem_append_right later (List.mem_cons_self ..), wake, rfl⟩,
      Instant.le_trans inTime.1 (by decide), settled result rfl⟩
  · have roomy : w.clock.Roomy := Instant.Roomy.of_le (by decide) inTime.1
    have none := (broke rfl).1
    rw [Instant.add?_of_roomy roomy (by decide)] at none
    cases none

/-- A manager that takes its locks for longer than any clock runs. -/
def everlasting : Manager := ⟨{ lockDuration := .ofSeconds 9223372036854775808 }, by decide⟩

/-- A caller of such a manager waits for a lock that is given back at once,
and breaks off although the lock is free. -/
theorem breaks_off_at_free_lock : locked.Reliable ∧ locked.guard? "k" ≠ none ∧ ∃ log w,
    Awaits everlasting "k" .start locked log w Action.overflow ∧ w.guard? "k" = none := by
  have ends : Instant.start.add? everlasting.policy.waitBudget = some (Instant.start.after (.ofSeconds 15)) := by decide
  have missed := (@Awaits.start everlasting "k" .start locked).go rfl (@Answers.cache _ _ (.ok none) rfl)
  have lost : Awaits everlasting "k" .start locked _ _ (everlasting.wait "k") :=
    missed.go rfl (@Answers.cache _ _ (.ok none) rfl)
  obtain ⟨_, waits⟩ := lost.begin 1 (.release heldLock) (World.heldUntil_of_eq rfl) (fun _ => by decide) ends
  rw [Manager.awaitOwner] at waits
  have free := waits.own (fun _ _ => by decide) (@Answers.cache _ _ (.ok false) rfl)
  have tries := free.go rfl (@Answers.cache _ _ (.ok none) rfl)
  exact ⟨⟨⟨_, _, rfl⟩, fun _ => rfl⟩, by decide, _, _, tries.crash rfl, by decide⟩

end Cache

end AccountCache
