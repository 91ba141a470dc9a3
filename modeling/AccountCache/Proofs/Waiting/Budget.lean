import AccountCache.Proofs.Requests.Customs
import AccountCache.Proofs.Waiting.Conduct

namespace AccountCache

open Program (Conforms Course)

/-- An exchange, with the moments of the request and of the answer. Between
the two the caller stands still. -/
structure Stamped extends Exchange effects where
  asked : Instant
  answered : Instant

/-- Whether a request that is made at some moment may be answered so at
another. The cache and the database take any time, and a sleeper may be
woken late. A clock shows the present, and nothing else takes any time. -/
inductive Effect.Takes (now : Instant) : (e : Effect) → e.Answer → Instant → Prop
  | cache {r later} (answer) : now ≤ later → Takes now (.cache r) answer later
  | database {r later} (answer) : now ≤ later → Takes now (.database r) answer later
  | clock (last) : Takes now (.clock last) ⟨max last now, Instant.le_max_left ..⟩ now
  | wallClock (time) : Takes now .wallClock time now
  | draw {low high} (drawn) : Takes now (.draw low high) drawn now
  | sleep {wake woken} (order : wake ≤ woken) : now ≤ woken → Takes now (.sleep wake) ⟨woken, order⟩ woken
  | warn (message) : Takes now (.warn message) () now

/-- To what a program comes that starts at some moment, what it asked and
heard on the way, the latest first, and how late it is then. Nothing is said
of the cache but that its answers may be any. -/
inductive Elapsed {α : Type} (p : Action α) (start : Instant) : List Stamped → Action α → Instant → Prop
  | start : Elapsed p start [] p start
  | step {log e next now answer later} : Elapsed p start log (.ask e next) now → e.Takes now answer later →
    Elapsed p start (⟨⟨e, answer⟩, now, later⟩ :: log) (next answer) later

namespace Elapsed

variable {α σ : Type} {p q : Action α} {start now : Instant} {log : List Stamped}

theorem course (run : Elapsed p start log q now) : p.Course (log.reverse.map Stamped.toExchange) q := by
  induction run with
  | start => exact .stay
  | step _ _ ih =>
    rw [List.reverse_cons, List.map_append]
    exact ih.snoc _

/-- What every move of a program preserves that keeps to a rule is true
throughout. -/
theorem invariant {moves : Discipline effects σ} {ends : σ → α → Prop} {s : σ} (run : Elapsed p start log q now)
    (inv : List Stamped → Instant → σ → Prop) (conforms : p.Conforms moves ends s) (first : inv [] start s)
    (step : ∀ {log now s e answer later s'}, inv log now s → e.Takes now answer later → moves s e answer s' →
      inv (⟨⟨e, answer⟩, now, later⟩ :: log) later s') : ∃ s, inv log now s ∧ q.Conforms moves ends s := by
  induction run with
  | start => exact ⟨s, first, conforms⟩
  | @step log e next now answer later _ takes ih =>
    obtain ⟨s, holds, conforms⟩ := ih
    obtain ⟨s', move, rest⟩ := conforms answer
    exact ⟨s', step holds takes move, rest⟩

end Elapsed

namespace Effect

/-- Every request may be answered, unless the clock does not have a moment
that is needed. -/
theorem exists_takes {e : Effect} (able : e ≠ .overflow) (now : Instant) :
    ∃ answer later, e.Takes now answer later := by
  cases e with
  | cache r => exact ⟨.error .pool, now, .cache _ (Instant.le_refl _)⟩
  | database r => exact ⟨.error (.connection ""), now, .database _ (Instant.le_refl _)⟩
  | clock last => exact ⟨_, _, .clock last⟩
  | wallClock => exact ⟨.epoch, _, .wallClock _⟩
  | draw low high => exact ⟨⟨low, Nat.le_refl _, by rw [Duration.le_def, Duration.nanos_max]; omega⟩, _, .draw _⟩
  | sleep wake => exact ⟨_, _, .sleep (Instant.le_max_left wake now) (Instant.le_max_right ..)⟩
  | warn message => exact ⟨(), _, .warn message⟩
  | overflow => exact absurd rfl able

theorem Takes.le {e : Effect} {now later : Instant} {answer : e.Answer} (takes : e.Takes now answer later) :
    now ≤ later := by
  cases takes with
  | cache _ order | database _ order | sleep _ order => exact order
  | clock | wallClock | draw | warn => exact Instant.le_refl _

/-- A clock that was not ahead shows the present, and takes no time. -/
theorem Takes.reading {now later last : Instant} {reading : (Effect.clock last).Answer}
    (takes : Effect.Takes now (.clock last) reading later) (past : last ≤ now) : reading.1 = now ∧ later = now := by
  cases takes with
  | clock => exact ⟨Instant.max_eq_right past, rfl⟩

def isProbe : Effect → Bool
  | cache (.isHeld _) => true
  | _ => false

def isClock : Effect → Bool
  | clock _ => true
  | _ => false

end Effect

/-- Whether a clock that was read leaves room for every lifetime up to
the horizon. -/
def Exchange.IsRoomy : Exchange effects → Prop
  | ⟨.clock _, reading⟩ => reading.1.Roomy
  | _ => True

namespace Cache

def probes (log : List Stamped) : Nat := log.countP (·.request.isProbe)

/-- When the clock was first read. A caller who waits starts with that. -/
def waitStart : List Stamped → Option Instant
  | [] => none
  | x :: earlier => (waitStart earlier).or (if x.request.isClock then some x.asked else none)

/-- Whether no call took any time. -/
def Prompt (log : List Stamped) : Prop := ∀ x ∈ log, ∀ r, x.request = .cache r → x.answered = x.asked

/-- How many looks at a lock fit into a wait. -/
def Manager.roundsOf (m : Manager) : Nat := (m.policy.waitBudget.nanos + 19999999) / 20000000 + 1

namespace Stage

variable {m : Manager} {key : String} {s s' : Stage} {e : Effect} {answer : e.Answer} {n : Nat}

/-- The most exchanges before the next look at the lock, or the end. -/
def ahead : Stage → Nat
  | outside => 4
  | missed => 2
  | lost => 1
  | probing .. => 0
  | looking .. => 6
  | trying .. => 4
  | checking .. => 3
  | resting _ _ drawn => if drawn then 1 else 2
  | late .. => 2
  | reporting next => next.ahead + 1
  | ended _ => 0

theorem afterGet_of {P : Stage → Prop} {answer : (Effect.cache (.get key)).Answer} {miss : Stage}
    (hit : ∀ value, P (ended (.ok (.hit value)))) (missed : P miss) (failed : P (reporting miss)) :
    P (miss.afterGet answer) := by
  rcases answer with e | _ | value
  · exact failed
  · exact missed
  · exact hit _

theorem afterAcquire_of {P : Stage → Prop} {expiry : Duration} {tries : Nat} {contended : Stage}
    {answer : (Effect.cache (.acquire key expiry tries)).Answer} (owner : ∀ lock, P (ended (.ok (.owner lock))))
    (lost : P contended) (failed : P (reporting (ended (.ok .bypass)))) : P (contended.afterAcquire answer) := by
  rcases answer with e | _ | lock
  · exact failed
  · exact lost
  · exact owner lock

theorem afterProbe_of {P : Stage → Prop} {answer : (Effect.cache (.isHeld key)).Answer} {held free : Stage}
    (isHeld : P held) (isFree : P free) (failed : P (reporting free)) : P (held.afterProbe free answer) := by
  rcases answer with e | _ | _
  · exact failed
  · exact isFree
  · exact isHeld

theorem ahead_lt (step : Step m key s e answer s') : s'.ahead + 1 ≤ s.ahead + if e.isProbe then 8 else 0 := by
  cases step with
  | outside | looking =>
    refine afterGet_of (P := fun s' => s'.ahead + 1 ≤ _) (fun _ => ?_) ?_ ?_ <;> simp [ahead, Effect.isProbe]
  | missed | trying =>
    refine afterAcquire_of (P := fun s' => s'.ahead + 1 ≤ _) (fun _ => ?_) ?_ ?_ <;> simp [ahead, Effect.isProbe]
  | probing =>
    refine afterProbe_of (P := fun s' => s'.ahead + 1 ≤ _) ?_ ?_ ?_ <;> simp [ahead, Effect.isProbe]
  | checking => split <;> simp [ahead, Effect.isProbe]
  | @sleep _ _ drawn => cases drawn <;> simp [ahead, Effect.isProbe]
  | lost | draw | late | report => simp [ahead, Effect.isProbe]

/-- Whether a caller who has looked at the lock so many times is where it
may be by then. Between any two looks there are 20 ms, or else the deadline
has come with the second. -/
def Paced (m : Manager) (n : Nat) : Stage → Prop
  | outside | missed | lost => n = 0
  | probing started last => n + 1 ≤ m.roundsOf ∧
    (started.nanos + 20000000 * n ≤ last.nanos ∨ started.after m.policy.waitBudget ≤ last)
  | looking started last | trying started last | checking started last => n ≤ m.roundsOf ∧
    (started.nanos + 20000000 * n ≤ last.nanos + 20000000 ∨ started.after m.policy.waitBudget ≤ last)
  | resting started now _ =>
    now < started.after m.policy.waitBudget ∧ started.nanos + 20000000 * n ≤ now.nanos + 20000000
  | late .. | ended _ => n ≤ m.roundsOf
  | reporting next => next.Paced m n

theorem Paced.le (paced : s.Paced m n) : n ≤ m.roundsOf := by
  induction s with
  | outside | missed | lost => exact paced.trans_le (Nat.zero_le _)
  | probing => exact Nat.le_of_succ_le paced.1
  | looking | trying | checking => exact paced.1
  | resting started now drawn =>
    obtain ⟨early, apart⟩ := paced
    simp only [Instant.lt_def, Instant.after] at early
    rw [Manager.roundsOf]
    omega
  | late | ended => exact paced
  | reporting next ih => exact ih paced

theorem Paced.step (paced : s.Paced m n) (step : Step m key s e answer s') :
    s'.Paced m (n + if e.isProbe then 1 else 0) := by
  have least : 1 ≤ m.roundsOf := Nat.le_add_left ..
  cases step with
  | outside =>
    have none : n = 0 := paced
    exact afterGet_of (P := Paced m n) (fun _ => none.trans_le (Nat.zero_le _)) none none
  | missed =>
    have none : n = 0 := paced
    have few : n ≤ m.roundsOf := none.trans_le (Nat.zero_le _)
    exact afterAcquire_of (P := Paced m n) (fun _ => few) none few
  | lost reading =>
    obtain rfl : n = 0 := paced
    exact ⟨least, .inl (Nat.le_refl _)⟩
  | @probing started last =>
    obtain ⟨few, apart⟩ := paced
    have next : Paced m (n + 1) (looking started last) := ⟨few, apart.imp_left fun late => by omega⟩
    exact afterProbe_of (P := Paced m (n + 1)) next next next
  | looking => exact afterGet_of (P := Paced m n) (fun _ => paced.1) paced paced
  | trying => exact afterAcquire_of (P := Paced m n) (fun _ => paced.1) paced paced.1
  | @checking started last reading =>
    obtain ⟨few, apart⟩ := paced
    have order : last.nanos ≤ reading.1.nanos := reading.2
    by_cases overdue : started.after m.policy.waitBudget ≤ reading.1
    · rw [if_pos overdue]
      exact few
    · rw [if_neg overdue]
      rcases apart with apart | passed
      · exact ⟨Instant.not_le.1 overdue, Nat.le_trans apart (Nat.add_le_add_right order _)⟩
      · exact absurd (Instant.le_trans passed order) overdue
  | draw => exact paced
  | @sleep started now drawn delay woken =>
    have long := delay.2.1
    have slept := woken.2
    obtain ⟨early, apart⟩ := paced
    simp only [Instant.le_def, Instant.lt_def, Instant.after, Instant.since, Duration.le_def, Duration.nanos_min,
      Duration.ofMillis, Duration.nanos_ofNanos, Duration.maxNanos] at early long slept
    refine ⟨?_, ?_⟩
    · show n + 1 ≤ _ + 1
      omega
    · -- The delay was kept, or else it was cut at the deadline.
      simp only [Instant.le_def, Instant.after]
      have most := m.policy.waitBudget.nanos_le
      rw [Duration.maxNanos] at most
      show _ + 20000000 * n ≤ _ ∨ _
      omega
  | late => exact paced
  | report => exact paced

/-- Whether a caller who has made so many requests, and so many looks at the
lock among them, may stand somewhere. -/
structure Counted (m : Manager) (asked looks : Nat) (s : Stage) : Prop where
  short : asked + s.ahead ≤ 8 * looks + 4
  paced : s.Paced m looks

theorem Counted.step {asked looks : Nat} (counted : s.Counted m asked looks) (step : Step m key s e answer s') :
    s'.Counted m (asked + 1) (looks + if e.isProbe then 1 else 0) := by
  refine ⟨?_, counted.paced.step step⟩
  have short := counted.short
  have ahead := ahead_lt step
  split at ahead
  · next probe => rw [if_pos probe]; omega
  · next other => rw [if_neg other]; omega

theorem Counted.le {asked looks : Nat} (counted : s.Counted m asked looks) : asked ≤ 8 * m.roundsOf + 4 := by
  have short := counted.short
  have few := counted.paced.le
  omega

theorem counted_first (m : Manager) : m.firstStage.Counted m 0 0 := by
  rw [Manager.firstStage]
  split
  · exact ⟨Nat.zero_le _, Nat.zero_le _⟩
  · exact ⟨Nat.le_refl _, rfl⟩

end Stage

theorem waitStart_cons {x : Stamped} (log : List Stamped) (other : x.request.isClock = false) :
    waitStart (x :: log) = waitStart log := by
  rw [waitStart, other]
  exact Option.or_none

/-- Once the clock was read, it is known when that was. -/
theorem waitStart_of_some {log : List Stamped} {started : Instant} (begun : waitStart log = some started)
    (x : Stamped) : waitStart (x :: log) = some started := by
  rw [waitStart, begun]
  rfl

theorem Prompt.of_cons {x : Stamped} {log : List Stamped} (prompt : Prompt (x :: log)) : Prompt log :=
  fun y member => prompt y (List.mem_cons_of_mem _ member)

/-- Whether the last look at the lock of a key found it held, or the try for
it that followed was lost. -/
def InVain (m : Manager) (key : String) (x : Stamped) (recent : List Stamped) : Prop :=
  x.toExchange = ⟨.cache (.isHeld key), .ok true⟩ ∨
    ∃ y ∈ recent, y.toExchange = ⟨.cache (.acquire key m.policy.lockDuration m.policy.lockTries), .ok none⟩

theorem InVain.cons {m : Manager} {key : String} {x : Stamped} {recent : List Stamped} (y : Stamped)
    (vain : InVain m key x recent) : InVain m key x (y :: recent) :=
  vain.imp_right fun ⟨z, member, lost⟩ => ⟨z, List.mem_cons_of_mem _ member, lost⟩

/-- Whether of the last look at a lock something is so, given what came
after it, the latest first, and if no call took any time it was made when
it was due. -/
structure Probed (log : List Stamped) (kind : Stamped → List Stamped → Prop) (due : Instant → Prop) : Prop where
  last : ∃ recent x earlier, log = recent ++ x :: earlier ∧ x.request.isProbe = true ∧
    (∀ y ∈ recent, y.request.isProbe = false) ∧ kind x recent ∧ (Prompt log → due x.asked)

namespace Probed

variable {log : List Stamped} {kind kind' : Stamped → List Stamped → Prop} {due due' : Instant → Prop} {x y : Stamped}

theorem look (looks : x.request.isProbe = true) (own : kind x []) (now : Prompt (x :: log) → due x.asked) :
    Probed (x :: log) kind due :=
  ⟨[], x, log, rfl, looks, List.forall_mem_nil _, own, now⟩

theorem cons (probed : Probed log kind due) (other : y.request.isProbe = false)
    (kept : ∀ x recent, kind x recent → kind' x (y :: recent)) (later : Prompt (y :: log) → ∀ t, due t → due' t) :
    Probed (y :: log) kind' due' := by
  obtain ⟨recent, x, earlier, rfl, looks, others, own, now⟩ := probed
  exact ⟨y :: recent, x, earlier, rfl, looks, List.forall_mem_cons.2 ⟨other, others⟩, kept x recent own,
    fun prompt => later prompt _ (now prompt.of_cons)⟩

end Probed

namespace Stage

variable {m : Manager} {key : String} {s s' : Stage} {log : List Stamped} {now later : Instant} {e : Effect}
  {answer : e.Answer}

/-- What a caller who stands somewhere has learnt of the time and
of the lock. -/
def Timely (m : Manager) (key : String) (log : List Stamped) (now : Instant) : Stage → Prop
  | outside | missed | lost => waitStart log = none
  | probing started last => waitStart log = some started ∧ last ≤ now
  | looking started last | trying started last =>
    waitStart log = some started ∧ last ≤ now ∧ Probed log (fun _ _ => True) (· = now)
  | checking started last => waitStart log = some started ∧ last ≤ now ∧ Probed log (InVain m key) (· = now)
  | resting started last _ => waitStart log = some started ∧ last = now ∧ now < started.after m.policy.waitBudget
  | late started last => waitStart log = some started ∧ last = now ∧ started.after m.policy.waitBudget ≤ now ∧
    Probed log (InVain m key) (· = now)
  | reporting next => next.Timely m key log now
  | ended (.ok _) => True
  | ended (.error e) => ∃ started waited, e = .waitTooLong key waited ∧ waitStart log = some started ∧
    m.policy.waitBudget ≤ waited ∧ Probed log (InVain m key) (started.after m.policy.waitBudget ≤ ·)

theorem Timely.warn (timely : s.Timely m key log now) (message : String) :
    s.Timely m key (⟨⟨.warn message, ()⟩, now, now⟩ :: log) now := by
  have looked : ∀ {due}, Probed log (InVain m key) due →
      Probed (⟨⟨.warn message, ()⟩, now, now⟩ :: log) (InVain m key) due :=
    fun probed => probed.cons rfl (fun _ _ vain => vain.cons _) fun _ _ => id
  induction s with
  | outside | missed | lost => exact (waitStart_cons log rfl).trans timely
  | probing | resting => exact timely.imp_left fun begun => waitStart_of_some begun _
  | looking | trying =>
    obtain ⟨begun, past, probed⟩ := timely
    exact ⟨waitStart_of_some begun _, past, probed.cons rfl (fun _ _ => id) fun _ _ => id⟩
  | checking =>
    obtain ⟨begun, past, probed⟩ := timely
    exact ⟨waitStart_of_some begun _, past, looked probed⟩
  | late =>
    obtain ⟨begun, past, due, probed⟩ := timely
    exact ⟨waitStart_of_some begun _, past, due, looked probed⟩
  | reporting next ih => exact ih timely
  | ended result =>
    cases result with
    | ok found => trivial
    | error e =>
      obtain ⟨started, waited, same, begun, long, probed⟩ := timely
      exact ⟨started, waited, same, waitStart_of_some begun _, long, looked probed⟩

theorem Timely.step (timely : s.Timely m key log now) (takes : e.Takes now answer later)
    (step : Step m key s e answer s') : s'.Timely m key (⟨⟨e, answer⟩, now, later⟩ :: log) later := by
  have before : e.isClock = false → waitStart log = none → waitStart (⟨⟨e, answer⟩, now, later⟩ :: log) = none :=
    fun other none => (waitStart_cons log other).trans none
  have atOnce : ∀ r, e = .cache r → Prompt (⟨⟨e, answer⟩, now, later⟩ :: log) → now = later :=
    fun r asked prompt => (prompt _ (List.mem_cons_self ..) r asked).symm
  have order := takes.le
  cases step with
  | outside =>
    have none := before rfl timely
    exact afterGet_of (P := Timely m key _ later) (fun _ => trivial) none none
  | missed =>
    have none := before rfl timely
    exact afterAcquire_of (P := Timely m key _ later) (fun _ => trivial) none trivial
  | lost reading =>
    obtain ⟨present, rfl⟩ := takes.reading (Nat.zero_le _)
    have none : waitStart log = none := timely
    refine ⟨?_, present ▸ Instant.le_refl _⟩
    rw [waitStart, none, present]
    rfl
  | @probing started last answer =>
    obtain ⟨begun, past⟩ := timely
    have begun := waitStart_of_some begun ⟨⟨.cache (.isHeld key), answer⟩, now, later⟩
    have past := Instant.le_trans past order
    rcases answer with e | _ | _
    · exact ⟨begun, past, .look rfl trivial (atOnce _ rfl)⟩
    · exact ⟨begun, past, .look rfl trivial (atOnce _ rfl)⟩
    · exact ⟨begun, past, .look rfl (.inl rfl) (atOnce _ rfl)⟩
  | @looking started last answer =>
    obtain ⟨begun, past, probed⟩ := timely
    have missed : Timely m key (⟨⟨.cache (.get key), answer⟩, now, later⟩ :: log) later (.trying started last) :=
      ⟨waitStart_of_some begun _, Instant.le_trans past order,
        probed.cons rfl (fun _ _ => id) fun prompt t asked => asked.trans (atOnce _ rfl prompt)⟩
    exact afterGet_of (P := Timely m key _ later) (fun _ => trivial) missed missed
  | @trying started last answer =>
    obtain ⟨begun, past, probed⟩ := timely
    rcases answer with e | _ | lock
    · trivial
    · refine ⟨waitStart_of_some begun _, Instant.le_trans past order, ?_⟩
      exact probed.cons rfl (fun _ _ _ => .inr ⟨_, List.mem_cons_self .., rfl⟩) fun prompt t asked =>
        asked.trans (atOnce _ rfl prompt)
    · trivial
  | @checking started last reading =>
    obtain ⟨begun, past, probed⟩ := timely
    obtain ⟨present, rfl⟩ := takes.reading past
    have begun := waitStart_of_some begun ⟨⟨.clock last, reading⟩, later, later⟩
    by_cases overdue : started.after m.policy.waitBudget ≤ reading.1
    · rw [if_pos overdue]
      exact ⟨begun, present, present ▸ overdue, probed.cons rfl (fun _ _ vain => vain.cons _) fun _ _ => id⟩
    · rw [if_neg overdue]
      exact ⟨begun, present, present ▸ Instant.not_le.1 overdue⟩
  | draw =>
    obtain ⟨begun, present, early⟩ := timely
    cases takes with
    | draw => exact ⟨waitStart_of_some begun _, present, early⟩
  | @sleep started last drawn delay woken =>
    refine ⟨waitStart_of_some timely.1 _, ?_⟩
    cases takes with
    | sleep => exact Instant.le_refl _
  | @late started last reading =>
    obtain ⟨begun, same, due, probed⟩ := timely
    obtain ⟨present, rfl⟩ := takes.reading (same ▸ Instant.le_refl _)
    have long : m.policy.waitBudget ≤ reading.1.since started := by
      have most := m.policy.waitBudget.nanos_le
      rw [present]
      simp only [Instant.le_def, Instant.after] at due
      simp only [Duration.le_def, Instant.since, Duration.nanos_ofNanos]
      omega
    refine ⟨started, _, rfl, waitStart_of_some begun _, long, probed.cons rfl (fun _ _ vain => vain.cons _) ?_⟩
    rintro _ _ rfl
    exact due
  | report message =>
    cases takes with
    | warn => exact Timely.warn timely message

theorem Timely.reading (timely : s.Timely m key log now) {last : Instant} {reading : (Effect.clock last).Answer}
    (takes : Effect.Takes now (.clock last) reading later) (step : Step m key s (.clock last) reading s') :
    reading.1 = now := by
  cases step with
  | lost => exact (takes.reading (Nat.zero_le _)).1
  | checking => exact (takes.reading timely.2.1).1
  | late =>
    obtain ⟨_, same, _⟩ := timely
    exact (takes.reading (same ▸ Instant.le_refl _)).1

end Stage

/-- A delay before the deadline is over in 200 ms, and by the deadline. -/
theorem Manager.wake_le (delay : Manager.PollDelay) {now deadline : Instant} (early : now < deadline) :
    now.after (min delay.1 (deadline.since now)) ≤ now.after (.ofMillis 200) ∧
      now.after (min delay.1 (deadline.since now)) ≤ deadline := by
  have short := delay.2.2
  simp only [Duration.le_def, Instant.lt_def, Instant.le_def, Instant.after, Instant.since, Duration.nanos_min,
    Duration.nanos_ofNanos] at short early ⊢
  omega

/-- Whether whoever sleeps in some exchange does so before the deadline of
the wait, for no more than 200 ms, and not beyond the deadline; awake by the
next whole millisecond, it is so by the one after the deadline. -/
def SleepsInTime (m : Manager) (log : List Stamped) (x : Stamped) : Prop :=
  ∀ wake, x.request = .sleep wake → ∃ started, waitStart log = some started ∧
    x.asked < started.after m.policy.waitBudget ∧ wake ≤ x.asked.after (.ofMillis 200) ∧
    wake ≤ started.after m.policy.waitBudget ∧
    (x.answered ≤ wake.roundUp → x.answered ≤ (started.after m.policy.waitBudget).roundUp)

/-- What is true of a caller at any time, who stands somewhere. How many
requests it may have made, and how many looks among them, is told by
where it stands. -/
structure Waits (m : Manager) (key : String) (log : List Stamped) (now : Instant) (s : Stage) : Prop where
  counted : s.Counted m log.length (probes log)
  timely : s.Timely m key log now
  sleeps : ∀ x ∈ log, SleepsInTime m log x
  readings : ∀ x ∈ log, ∀ last reading, x.toExchange = ⟨.clock last, reading⟩ → reading.1 ≤ now

theorem SleepsInTime.cons {m : Manager} {log : List Stamped} {x : Stamped} (sleeps : SleepsInTime m log x)
    (y : Stamped) : SleepsInTime m (y :: log) x := fun wake asked =>
  have ⟨started, begun, rest⟩ := sleeps wake asked
  ⟨started, waitStart_of_some begun y, rest⟩

theorem Waits.step {m : Manager} {key : String} {log : List Stamped} {now later : Instant} {s s' : Stage} {e : Effect}
    {answer : e.Answer} (waits : Waits m key log now s) (takes : e.Takes now answer later)
    (step : Stage.Step m key s e answer s') : Waits m key (⟨⟨e, answer⟩, now, later⟩ :: log) later s' := by
  have count : probes (⟨⟨e, answer⟩, now, later⟩ :: log) = probes log + if e.isProbe then 1 else 0 := List.countP_cons
  have order := takes.le
  refine ⟨count ▸ waits.counted.step step, waits.timely.step takes step, ?_, ?_⟩
  · refine List.forall_mem_cons.2 ⟨?_, fun x member => (waits.sleeps x member).cons _⟩
    rintro wake ⟨⟩
    cases step with
    | @sleep started last drawn delay woken =>
      obtain ⟨begun, rfl, early⟩ := waits.timely
      obtain ⟨short, wake⟩ := Manager.wake_le delay early
      exact ⟨started, waitStart_of_some begun _, early, short, wake,
        fun awake => Instant.le_trans awake (Instant.roundUp_mono wake)⟩
  · refine List.forall_mem_cons.2 ⟨?_, fun x member last reading same =>
      Instant.le_trans (waits.readings x member last reading same) order⟩
    rintro last reading ⟨⟩
    exact (waits.timely.reading takes step).trans_le order

/-- A caller stands somewhere at all times, and is done when it has
ended there. The invariant is `Waits`, which each step from stage to
stage keeps. -/
theorem waits_of_elapsed {m : Manager} {key : String} {start now : Instant} {log : List Stamped}
    {q : Action (Except Error Lookup)} (run : Elapsed (m.getOrLock key) start log q now) :
    ∃ s, Waits m key log now s ∧ q.Conforms (Stage.Step m key) (fun s result => s = .ended result) s := by
  refine run.invariant (Waits m key) m.stages_getOrLock ?_ Waits.step
  have timely : m.firstStage.Timely m key [] start := by
    rw [Manager.firstStage]
    split
    · trivial
    · exact rfl
  exact ⟨Stage.counted_first m, timely, List.forall_mem_nil _, List.forall_mem_nil _⟩

/-- No wait that starts while the clock leaves room breaks off for want of
a deadline. -/
theorem minds_of_short {m : Manager} (short : m.policy.waitBudget ≤ horizon) (key : String) :
    (m.getOrLock key).Minds Exchange.IsRoomy (· ≠ .overflow) := by
  refine Manager.minds_getOrLock (m := m) ⟨fun _ _ => id, fun reading roomy ends => ?_, ?_, ?_, ?_, ?_⟩ key
  · rw [Instant.add?_of_roomy roomy short] at ends
    cases ends
  all_goals exact fun _ => nofun

/-- Whatever the cache answers, however long each call takes and whatever
delays are drawn: a caller who wants a value or the right to compute it
comes to an end after a bounded number of requests, and is never stuck
before. It looks at the lock no more often than 20 ms fit into its patience,
begun ones counted, and once more. It sleeps in time only. The one error it
may report is that it waited for too long, which it did, and then its last
look at the lock found it held, or was followed by a lost try for it; that
look was made no sooner than the deadline if no call took any time. -/
theorem wait_within_budget (m : Manager) (key : String) (short : m.policy.waitBudget ≤ horizon) {start now : Instant}
    {log : List Stamped} {q : Action (Except Error Lookup)} (run : Elapsed (m.getOrLock key) start log q now)
    (roomy : now.Roomy) :
    log.length ≤ 8 * ((m.policy.waitBudget.nanos + 19999999) / 20000000 + 1) + 4 ∧
      ((∃ result, q = .done result) ∨ ∃ e next answer later, q = .ask e next ∧ e.Takes now answer later) ∧
      probes log ≤ (m.policy.waitBudget.nanos + 19999999) / 20000000 + 1 ∧
      (∀ x ∈ log, SleepsInTime m log x) ∧
      ∀ e, q = .done (.error e) → ∃ started waited, e = .waitTooLong key waited ∧ waitStart log = some started ∧
        m.policy.waitBudget ≤ waited ∧ Probed log (InVain m key) (started.after m.policy.waitBudget ≤ ·) := by
  obtain ⟨s, waits, conforms⟩ := waits_of_elapsed run
  refine ⟨waits.counted.le, ?_, waits.counted.paced.le, waits.sleeps, ?_⟩
  · cases q with
    | done result => exact .inl ⟨result, rfl⟩
    | ask e next =>
      have heard : ∀ x ∈ log.reverse.map Stamped.toExchange, Exchange.IsRoomy x := by
        refine List.forall_mem_map.2 fun x member => ?_
        have past := waits.readings x (List.mem_reverse.1 member)
        obtain ⟨⟨e, answer⟩, _, _⟩ := x
        cases e with
        | clock last => exact roomy.of_le (past last answer rfl)
        | _ => trivial
      have able : e ≠ .overflow := ((minds_of_short short key).of_course run.course heard).1
      obtain ⟨answer, later, takes⟩ := Effect.exists_takes able now
      exact .inr ⟨e, next, answer, later, rfl, takes⟩
  · rintro e rfl
    obtain rfl := conforms
    exact waits.timely

end Cache

namespace Elapsed

open Cache (Error Lookup Manager)

variable {m : Manager} {key : String} {p : Action (Except Error Lookup)} {start now started deadline later : Instant}
  {log : List Stamped} {attempt : Nat}

/-- A caller who begins to wait knows when it is due. -/
theorem begin (run : Elapsed p start log (m.wait key) now) (ends : now.add? m.policy.waitBudget = some deadline) :
    ∃ log, Elapsed p start log (m.awaitOwner key now deadline now 0) now := by
  have begun := run.step (.clock .start)
  have present : max Instant.start now = now := Instant.max_start _
  simp only [Program.bind_done, present, ends] at begun
  exact ⟨_, begun⟩

/-- A caller who finds the lock held before it is due sleeps, and may be
woken as late as anyone likes. -/
theorem sleep (run : Elapsed p start log (m.awaitOwner key started deadline now 0) now) (early : now < deadline)
    (due : deadline ≤ later) : ∃ log x wake,
      Elapsed p start (x :: log) (m.awaitOwner key started deadline later 1) later ∧ x.request = .sleep wake := by
  rw [Manager.awaitOwner] at run
  have first : Manager.pollDelay 0 = .done ⟨_, Manager.step_pollBackoff 0⟩ := rfl
  have reading := (run.step (.cache (.ok true) (Instant.le_refl _))).step (.clock now)
  have present : max now now = now := Instant.max_eq_right (Instant.le_refl _)
  simp only [Program.bind_done, present, dif_neg (Instant.not_le.2 early), first] at reading
  have rested := (Manager.wake_le ⟨_, Manager.step_pollBackoff 0⟩ early).2
  exact ⟨_, _, _, reading.step (.sleep (Instant.le_trans rested due) (Instant.le_trans (Nat.le_of_lt early) due)), rfl⟩

/-- A caller who finds the lock held when it is due gives up. -/
theorem givesUp (run : Elapsed p start log (m.awaitOwner key started deadline now attempt) now)
    (due : deadline ≤ now) : ∃ later, Elapsed p start (later ++ log)
      (.done (.error (.waitTooLong key (now.since started)))) now := by
  rw [Manager.awaitOwner] at run
  have present : max now now = now := Instant.max_eq_right (Instant.le_refl _)
  have reading := (run.step (.cache (.ok true) (Instant.le_refl _))).step (.clock now)
  simp only [Program.bind_done, present, dif_pos due] at reading
  have late := (reading.step (.clock now)).step (.warn _)
  simp only [Program.bind_done, present] at late
  exact ⟨[_, _, _, _], late⟩

end Elapsed

namespace Cache

/-- A caller who finds the lock held sleeps until it is due, looks once more
and gives up. -/
theorem default_gives_up : ∃ (log : List Stamped) (now started : Instant),
    Elapsed (Manager.getOrLock default "k") .start log (.done (.error (.waitTooLong "k" (.ofSeconds 15)))) now ∧
      (∃ x ∈ log, ∃ wake, x.request = .sleep wake ∧ SleepsInTime default log x) ∧ probes log ≤ 751 ∧
      waitStart log = some started ∧ Probed log (InVain default "k") (started.after (.ofSeconds 15) ≤ ·) := by
  let due : Instant := Instant.start.after (.ofSeconds 15)
  have missed := (@Elapsed.start _ (Manager.getOrLock default "k") .start).step (.cache (.ok none) (Instant.le_refl _))
  have lost : Elapsed (Manager.getOrLock default "k") .start _ (Manager.wait default "k") .start :=
    missed.step (.cache (.ok none) (Instant.le_refl _))
  have ends : Instant.start.add? (default : Manager).policy.waitBudget = some due := by decide
  obtain ⟨_, waits⟩ := lost.begin ends
  obtain ⟨before, x, wake, woken, slept⟩ := waits.sleep (by decide) (Instant.le_refl _)
  obtain ⟨later, gaveUp⟩ := woken.givesUp (Instant.le_refl _)
  have member : x ∈ later ++ x :: before := List.mem_append_right _ (List.mem_cons_self ..)
  obtain ⟨_, _, few, inTime, failed⟩ := wait_within_budget default "k" (by decide) gaveUp (by decide)
  obtain ⟨started, waited, same, begun, _, probed⟩ := failed _ rfl
  exact ⟨_, _, started, gaveUp, ⟨x, member, wake, slept, inTime x member⟩, few, begun, probed⟩

end Cache

end AccountCache
