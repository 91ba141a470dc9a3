import AccountCache.Proofs.Waiting.Freed

namespace AccountCache

open Simulation (World)
open Simulation.World (Answers)

namespace Cache

/-- What a caller may come to who wants a value or the right to compute
it, what it asked and heard, the latest first, and the world by then.
Between its requests others ask for anything, locks get any tokens, and
any time passes. -/
inductive Amid (m : Manager) (key : String) (world : World) :
    List Seen → World → Action (Except Error Lookup) → Prop
  | start : Amid m key world [] world (m.getOrLock key)
  | own {log w e next answer w'} (number : Nat) : Amid m key world log w (.ask e next) →
    (w.numbered number).Answers e answer w' →
    Amid m key world (⟨⟨e, answer⟩, w.numbered number⟩ :: log) w' (next answer)
  | other {log w q} (number : Nat) (r : Request) : Amid m key world log w q →
    Amid m key world log ((w.numbered number).serveCache r).2 q
  | wait {log w q} (later : Instant) : Amid m key world log w q → Amid m key world log (w.advanceTo later) q

/-- Whether a poll was in vain that began with a look at the lock, given
what came after it, the latest first. Someone held the lock, or else
there was no value and someone held the lock by the time the caller
tried for it. -/
def HeldOff (m : Manager) (key : String) (poll : Seen) (after : List Seen) : Prop :=
  poll.world.guard? key ≠ none ∨
    ∃ rest tried looked, after = rest ++ [tried, looked] ∧
      looked.request = .cache (.get key) ∧ looked.world.cached? key = none ∧
      tried.request = .cache (.acquire key m.policy.lockDuration m.policy.lockTries) ∧ tried.world.guard? key ≠ none

/-- Whether all polls were in vain, and no look at the cache
found a value. -/
structure AllInVain (m : Manager) (key : String) (log : List Seen) : Prop where
  polls : ∀ after poll before, log = after ++ poll :: before → poll.request = .cache (.isHeld key) →
    HeldOff m key poll after
  looks : ∀ x ∈ log, x.request = .cache (.get key) → x.world.cached? key = none

variable {m : Manager} {key : String} {world w w' : World} {log : List Seen} {x : Seen}
  {q : Action (Except Error Lookup)}

theorem HeldOff.cons {after : List Seen} (held : HeldOff m key x after) (y : Seen) : HeldOff m key x (y :: after) :=
  held.imp_right fun ⟨rest, tried, looked, same, facts⟩ => ⟨y :: rest, tried, looked, by rw [same]; rfl, facts⟩

namespace AllInVain

theorem nil : AllInVain m key [] :=
  ⟨fun after poll before same => by simp at same, List.forall_mem_nil _⟩

theorem cons (vain : AllInVain m key log) (own : x.request = .cache (.isHeld key) → HeldOff m key x [])
    (missed : x.request = .cache (.get key) → x.world.cached? key = none) : AllInVain m key (x :: log) := by
  refine ⟨fun after poll before same looks => ?_, List.forall_mem_cons.2 ⟨missed, vain.looks⟩⟩
  rcases List.cons_eq_append_iff.1 same with ⟨rfl, first⟩ | ⟨after, rfl, rest⟩
  · cases first
    exact own looks
  · exact (vain.polls after poll before rest looks).cons x

/-- A poll is in vain that finds the lock free and no value, if someone else
takes the lock then. -/
theorem lost (vain : AllInVain m key log) {poll looked tried : Seen} (look : looked.request = .cache (.get key))
    (missed : looked.world.cached? key = none)
    (tries : tried.request = .cache (.acquire key m.policy.lockDuration m.policy.lockTries))
    (locked : tried.world.guard? key ≠ none) (request : poll.request = .cache (.isHeld key)) :
    AllInVain m key (tried :: looked :: poll :: log) := by
  refine ⟨fun after x before same looks => ?_, ?_⟩
  · rcases List.cons_eq_append_iff.1 same with ⟨_, first⟩ | ⟨after₁, rfl, same₁⟩
    · cases first
      cases tries.symm.trans looks
    rcases List.cons_eq_append_iff.1 same₁ with ⟨_, first⟩ | ⟨after₂, rfl, same₂⟩
    · cases first
      cases look.symm.trans looks
    rcases List.cons_eq_append_iff.1 same₂ with ⟨rfl, first⟩ | ⟨after₃, rfl, same₃⟩
    · cases first
      exact .inr ⟨[], tried, looked, rfl, look, missed, tries, locked⟩
    · exact (((vain.polls after₃ x before same₃ looks).cons poll).cons looked).cons tried
  · simp only [List.forall_mem_cons]
    exact ⟨by simp [tries], fun _ => missed, by simp [request], vain.looks⟩

end AllInVain

def HasPolled (key : String) (log : List Seen) : Prop := ∃ x ∈ log, x.request = .cache (.isHeld key)

theorem HasPolled.cons (polled : HasPolled key log) (x : Seen) : HasPolled key (x :: log) :=
  have ⟨y, member, looks⟩ := polled
  ⟨y, List.mem_cons_of_mem x member, looks⟩

/-- Whether a caller who reports an error has waited, and all its polls
were in vain. -/
def ComplainsRightly (m : Manager) (key : String) (log : List Seen) : Except Error Lookup → Prop
  | .ok _ => True
  | .error e => (∃ waited, e = .waitTooLong key waited) ∧ HasPolled key log ∧ AllInVain m key log

namespace Stage

variable {s s' : Stage} {e : Effect} {answer : e.Answer}

/-- What a caller has seen who stands somewhere. -/
def HasSeen (m : Manager) (key : String) (log : List Seen) : Stage → Prop
  | outside | missed | lost | probing .. => AllInVain m key log
  | looking .. => ∃ poll before, log = poll :: before ∧ poll.request = .cache (.isHeld key) ∧ AllInVain m key before
  | trying .. => ∃ looked poll before, log = looked :: poll :: before ∧ looked.request = .cache (.get key) ∧
    looked.world.cached? key = none ∧ poll.request = .cache (.isHeld key) ∧ AllInVain m key before
  | checking .. | resting .. | late .. => HasPolled key log ∧ AllInVain m key log
  | reporting (ended result) | ended result => ComplainsRightly m key log result
  | reporting _ => False

/-- A caller who looks at the cache goes on only if there is no value. -/
theorem hasSeen_of_get (reliable : w.Reliable) {answer : (Effect.cache (.get key)).Answer}
    (answers : w.Answers (.cache (.get key)) answer w') (miss : Stage)
    (missed : w.cached? key = none → miss.HasSeen m key log) : (miss.afterGet answer).HasSeen m key log := by
  obtain ⟨_, told, _⟩ := reliable.get answers
  subst told
  cases found : w.cached? key with
  | some e => trivial
  | none => exact missed found

/-- A caller who tries for the lock goes on only if it is held. -/
theorem hasSeen_of_acquire (reliable : w.Reliable) {answer : (Effect.cache
    (.acquire key m.policy.lockDuration m.policy.lockTries)).Answer}
    (answers : w.Answers (.cache (.acquire key m.policy.lockDuration m.policy.lockTries)) answer w')
    (contended : Stage) (held : w.guard? key ≠ none → contended.HasSeen m key log) :
    (contended.afterAcquire answer).HasSeen m key log := by
  have lasting : m.policy.lockDuration.nanos ≠ 0 := (Policy.problem?_eq_none m.usable).2.2
  obtain ⟨_, _, ⟨guard, rfl, locked, _⟩ | ⟨lock, _, rfl, _⟩⟩ := reliable.acquire answers lasting
  · exact held (by simp [locked])
  · trivial

theorem HasSeen.step (seen : s.HasSeen m key log) (step : Step m key s e answer s') (reliable : w.Reliable)
    (answers : w.Answers e answer w') : s'.HasSeen m key (⟨⟨e, answer⟩, w⟩ :: log) := by
  cases step with
  | outside answer =>
    exact hasSeen_of_get reliable answers .missed fun missed => AllInVain.cons seen nofun fun _ => missed
  | missed answer =>
    exact hasSeen_of_acquire reliable answers .lost fun _ => AllInVain.cons seen nofun nofun
  | lost reading => exact AllInVain.cons seen nofun nofun
  | @probing started last answer =>
    obtain ⟨_, rfl, _⟩ := reliable.probe answers
    cases found : w.guard? key with
    | none => exact ⟨_, log, rfl, rfl, seen⟩
    | some e =>
      exact ⟨⟨_, List.mem_cons_self .., rfl⟩, AllInVain.cons seen (fun _ => .inl (by simp [found])) nofun⟩
  | @looking started last answer =>
    obtain ⟨poll, before, rfl, looks, vain⟩ := seen
    exact hasSeen_of_get reliable answers (.trying started last) fun missed =>
      ⟨_, poll, before, rfl, rfl, missed, looks, vain⟩
  | @trying started last answer =>
    obtain ⟨looked, poll, before, rfl, look, missed, looks, vain⟩ := seen
    refine hasSeen_of_acquire reliable answers (.checking started last) fun locked => ⟨?_, ?_⟩
    · exact ⟨poll, by simp, looks⟩
    · exact vain.lost look missed rfl locked looks
  | @checking started last reading =>
    have seen' : HasPolled key (⟨⟨.clock last, reading⟩, w⟩ :: log) ∧
        AllInVain m key (⟨⟨.clock last, reading⟩, w⟩ :: log) := ⟨seen.1.cons _, seen.2.cons nofun nofun⟩
    split
    · exact seen'
    · exact seen'
  | draw => exact ⟨seen.1.cons _, seen.2.cons nofun nofun⟩
  | sleep => exact seen.2.cons nofun nofun
  | late => exact ⟨⟨_, rfl⟩, seen.1.cons _, seen.2.cons nofun nofun⟩
  | report message =>
    cases s' with
    | ended result =>
      cases result with
      | ok found => trivial
      | error e =>
        obtain ⟨same, polled, vain⟩ := seen
        exact ⟨same, polled.cons _, vain.cons nofun nofun⟩
    | _ => exact seen.elim

end Stage

/-- A caller stands somewhere at all times, whatever the others do, and has
seen what one has seen who stands there. -/
theorem Amid.stands (reliable : world.Reliable) (run : Amid m key world log w q) :
    w.Reliable ∧ ∃ s, s.HasSeen m key log ∧
      q.Conforms (Stage.Step m key) (fun s result => s = .ended result) s := by
  induction run with
  | start =>
    have seen : m.firstStage.HasSeen m key [] := by
      rw [Manager.firstStage]
      split
      · trivial
      · exact AllInVain.nil
    exact ⟨reliable, _, seen, m.stages_getOrLock⟩
  | @own log w e next answer w' number _ answers ih =>
    obtain ⟨reliable, s, seen, conforms⟩ := ih
    obtain ⟨s', step, rest⟩ := conforms answer
    have numbered := reliable.numbered number
    exact ⟨numbered.answered answers, s', seen.step step numbered answers, rest⟩
  | other number r _ ih => exact ⟨(ih.1.numbered number).served r, ih.2⟩
  | wait later _ ih => exact ⟨ih.1.advanceTo later, ih.2⟩

/-- Whatever the others do, with or without the lock of the key: a caller
reports an error only if it waited for too long. It has polled then, and
each time, the last one included, someone held the lock at that moment, or
else there was no value and someone took the lock before the caller could.
None of its looks at the cache found a value. -/
theorem gives_up_when_held_off (m : Manager) (key : String) (reliable : world.Reliable) {e : Error}
    (run : Amid m key world log w (.done (.error e))) :
    (∃ waited, e = .waitTooLong key waited) ∧ (∃ poll ∈ log, poll.request = .cache (.isHeld key)) ∧
      (∀ after poll before, log = after ++ poll :: before → poll.request = .cache (.isHeld key) →
        HeldOff m key poll after) ∧
      ∀ x ∈ log, x.request = .cache (.get key) → x.world.cached? key = none := by
  obtain ⟨_, s, seen, rfl⟩ := run.stands reliable
  obtain ⟨waited, polled, vain⟩ := seen
  exact ⟨waited, polled, vain.polls, vain.looks⟩

namespace Amid

variable {started deadline later : Instant}

theorem ask {e : Effect} {next : e.Answer → Action (Except Error Lookup)} {answer : e.Answer}
    (run : Amid m key world log w (.ask e next)) (answers : w.Answers e answer w') :
    Amid m key world (⟨⟨e, answer⟩, w⟩ :: log) w' (next answer) :=
  run.own w.tokenCount answers

/-- A caller who waits knows when it started. -/
theorem begin (run : Amid m key world log w (m.wait key)) (ends : w.clock.add? m.policy.waitBudget = some deadline) :
    ∃ log, Amid m key world log w (m.awaitOwner key w.clock deadline w.clock 0) := by
  have begun := run.ask (.clock .start)
  have present : max Instant.start w.clock = w.clock := Instant.max_start _
  simp only [Program.bind_done, present, ends] at begun
  exact ⟨_, begun⟩

/-- A caller who finds the lock held before its deadline sleeps, and is
awake as late as anyone likes. -/
theorem sleep (run : Amid m key world log w (m.awaitOwner key started deadline w.clock 0))
    (held : (w.serveCache (.isHeld key)).1 = some (.ok true)) (early : w.clock < deadline) (due : deadline ≤ later) :
    ∃ log x wake, Amid m key world (x :: log) ((w.serveCache (.isHeld key)).2.advanceTo later)
      (m.awaitOwner key started deadline later 1) ∧ x.request = .sleep wake := by
  rw [Manager.awaitOwner] at run
  have clock := World.clock_serveCache w (.isHeld key)
  have present : max w.clock (w.serveCache (.isHeld key)).2.clock = w.clock := by
    rw [clock, Instant.max_eq_right (Instant.le_refl _)]
  have awake : ((w.serveCache (.isHeld key)).2.advanceTo later).clock = later :=
    Instant.max_eq_right (clock ▸ Instant.le_trans (Nat.le_of_lt early) due)
  have first : Manager.pollDelay 0 = .done ⟨_, Manager.step_pollBackoff 0⟩ := rfl
  have reading := (run.ask (.cache held)).ask (.clock w.clock)
  simp only [Program.bind_done, present, dif_neg (Instant.not_le.2 early), first] at reading
  have rested := (Manager.wake_le ⟨_, Manager.step_pollBackoff 0⟩ early).2
  have woken := (reading.wait later).ask (.sleep (awake.symm ▸ Instant.le_trans rested due))
  simp only [awake] at woken
  exact ⟨_, _, _, woken, rfl⟩

/-- A caller who finds the lock held when it is due gives up. -/
theorem givesUp {attempt : Nat} (run : Amid m key world log w (m.awaitOwner key started deadline w.clock attempt))
    (held : (w.serveCache (.isHeld key)).1 = some (.ok true)) (due : deadline ≤ w.clock) :
    ∃ after w' waited, Amid m key world (after ++ ⟨⟨.cache (.isHeld key), .ok true⟩, w⟩ :: log) w'
      (.done (.error (.waitTooLong key waited))) ∧ ∀ x ∈ after, x.request ≠ .cache (.isHeld key) := by
  rw [Manager.awaitOwner] at run
  have present : max w.clock (w.serveCache (.isHeld key)).2.clock = w.clock := by
    rw [World.clock_serveCache, Instant.max_eq_right (Instant.le_refl _)]
  have reading := (run.ask (.cache held)).ask (.clock w.clock)
  simp only [Program.bind_done, present, dif_pos due] at reading
  have late := (reading.ask (.clock w.clock)).ask (.warn _)
  exact ⟨[_, _, _], _, _, late, by simp⟩

/-- A caller who finds the lock free and no value when it is due gives up,
if someone takes the lock before it can. -/
theorem outrun {attempt : Nat} {last : Instant} {w₁ w₂ w₃ : World}
    (run : Amid m key world log w (m.awaitOwner key started deadline last attempt))
    (free : w.Answers (.cache (.isHeld key)) (.ok false) w₁) (missed : w₁.Answers (.cache (.get key)) (.ok none) w₂)
    (number : Nat) (r : Request) (taken : ((w₂.numbered number).serveCache r).2.Answers
      (.cache (.acquire key m.policy.lockDuration m.policy.lockTries)) (.ok none) w₃)
    (present : max last w₃.clock = w₃.clock) (due : deadline ≤ w₃.clock) :
    ∃ after w' waited, Amid m key world (after ++ log) w' (.done (.error (.waitTooLong key waited))) := by
  rw [Manager.awaitOwner] at run
  have looked := (run.ask free).ask missed
  have reading := ((looked.other number r).ask taken).ask (.clock last)
  simp only [Program.bind_done, present, dif_pos due] at reading
  have late := (reading.ask (.clock w₃.clock)).ask (.warn _)
  exact ⟨[_, _, _, _, _, _], _, _, late⟩

end Amid

def occupied : World := (({} : World).serveCache (.acquire "k" (.ofSeconds 60) 1)).2

/-- A caller finds the lock held and sleeps until it is due. Its last poll
finds the lock free and no value, but the owner, who gave the lock back,
takes it again before the caller can. -/
theorem default_held_off : occupied.Reliable ∧ ∃ log w waited,
    Amid default "k" occupied log w (.done (.error (.waitTooLong "k" waited))) ∧
      (∃ x ∈ log, ∃ wake, x.request = .sleep wake) ∧ (∃ poll ∈ log, poll.request = .cache (.isHeld "k")) ∧
      (∀ after poll before, log = after ++ poll :: before → poll.request = .cache (.isHeld "k") →
        HeldOff default "k" poll after) := by
  let due : Instant := Instant.start.after (.ofSeconds 15)
  have reliable : occupied.Reliable := ⟨⟨_, _, rfl⟩, fun _ => rfl⟩
  have missed := (@Amid.start default "k" occupied).ask (@Answers.cache _ _ (.ok none) rfl)
  have lost : Amid default "k" occupied _ _ (Manager.wait default "k") :=
    missed.ask (@Answers.cache _ _ (.ok none) rfl)
  have ends : Instant.start.add? (default : Manager).policy.waitBudget = some due := by decide
  obtain ⟨_, waits⟩ := lost.begin ends
  obtain ⟨before, x, wake, woken, slept⟩ := waits.sleep rfl (by decide) (Instant.le_refl _)
  obtain ⟨after, _, _, gaveUp⟩ := (woken.other 3 (.release ⟨"k", ({} : World).token, .ofSeconds 60⟩)).outrun
    (.cache rfl) (.cache rfl) 4 (.acquire "k" (.ofSeconds 60) 1) (.cache (by decide)) (by decide) (by decide)
  obtain ⟨_, polled, vain, _⟩ := gives_up_when_held_off default "k" reliable gaveUp
  exact ⟨reliable, _, _, _, gaveUp, ⟨x, List.mem_append_right _ (List.mem_cons_self ..), wake, slept⟩, polled, vain⟩

/-- An owner writes the value and keeps the lock. A caller who lost the lock
to it finds the lock held whenever it looks and gives up, although the value
is there, at its last poll too. -/
theorem gives_up_beside_value : ∃ log w waited after poll before, occupied.Reliable ∧
    Amid default "k" occupied log w (.done (.error (.waitTooLong "k" waited))) ∧ log = after ++ poll :: before ∧
      poll.request = .cache (.isHeld "k") ∧ (∀ x ∈ after, x.request ≠ .cache (.isHeld "k")) ∧
      poll.world.cached? "k" ≠ none := by
  let due : Instant := Instant.start.after (.ofSeconds 15)
  have missed := (@Amid.start default "k" occupied).ask (@Answers.cache _ _ (.ok none) rfl)
  have lost : Amid default "k" occupied _ _ (Manager.wait default "k") :=
    missed.ask (@Answers.cache _ _ (.ok none) rfl)
  have ends : Instant.start.add? (default : Manager).policy.waitBudget = some due := by decide
  obtain ⟨_, waits⟩ := (lost.other 3 (.set ⟨"k", .ofText "v", 60⟩)).begin ends
  obtain ⟨_, _, _, slept, _⟩ := waits.sleep rfl (by decide) (Instant.le_refl _)
  obtain ⟨after, _, _, gaveUp, last⟩ := slept.givesUp rfl (by decide)
  exact ⟨_, _, _, after, _, _, ⟨⟨_, _, rfl⟩, fun _ => rfl⟩, gaveUp, rfl, rfl, last, by decide⟩

end Cache

end AccountCache
