import AccountCache.Proofs.Interleaving.GetOrLock
import AccountCache.Proofs.Store.Live

namespace AccountCache

namespace Cache

/-- Where a caller stands. A wait is known by the moment at which it started
and by the last reading of the clock. -/
inductive Stage where
  /-- About to look at the cache. -/
  | outside
  /-- About to try for the lock. -/
  | missed
  /-- About to wait for the owner of the lock. -/
  | lost
  /-- About to see whether the lock is free. -/
  | probing (started last : Instant)
  /-- About to look at the cache, since the lock was free. -/
  | looking (started last : Instant)
  /-- About to try for the lock, since there was no value. -/
  | trying (started last : Instant)
  /-- About to see whether the deadline has come. -/
  | checking (started last : Instant)
  /-- About to sleep; a delay may be drawn before. -/
  | resting (started now : Instant) (drawn : Bool)
  /-- About to see how late it is. -/
  | late (started now : Instant)
  /-- About to warn, and then elsewhere. -/
  | reporting (next : Stage)
  | ended (result : Except Error Lookup)

namespace Stage

def afterGet {key : String} (miss : Stage) : (Effect.cache (.get key)).Answer → Stage
  | .ok (some value) => ended (.ok (.hit (.ofBytes value)))
  | .ok none => miss
  | .error _ => reporting miss

def afterAcquire {key : String} {expiry : Duration} {tries : Nat} (contended : Stage) :
    (Effect.cache (.acquire key expiry tries)).Answer → Stage
  | .ok (some lock) => ended (.ok (.owner lock))
  | .ok none => contended
  | .error _ => reporting (ended (.ok .bypass))

def afterProbe {key : String} (held free : Stage) : (Effect.cache (.isHeld key)).Answer → Stage
  | .ok true => held
  | .ok false => free
  | .error _ => reporting free

/-- From stage to stage: what a caller asks for where it stands, and what it
makes of the answer. Nothing else is known of its course in what follows. -/
inductive Step (m : Manager) (key : String) : Discipline effects Stage
  | outside (answer) : Step m key outside (.cache (.get key)) answer (afterGet missed answer)
  | missed (answer) :
    Step m key missed (.cache (.acquire key m.policy.lockDuration m.policy.lockTries)) answer (afterAcquire lost answer)
  | lost (reading) : Step m key lost (.clock .start) reading (probing reading.1 reading.1)
  | probing {started last} (answer) :
    Step m key (probing started last) (.cache (.isHeld key)) answer
      (afterProbe (checking started last) (looking started last) answer)
  | looking {started last} (answer) :
    Step m key (looking started last) (.cache (.get key)) answer (afterGet (trying started last) answer)
  | trying {started last} (answer) :
    Step m key (trying started last) (.cache (.acquire key m.policy.lockDuration m.policy.lockTries)) answer
      (afterAcquire (checking started last) answer)
  | checking {started last} (reading) :
    Step m key (checking started last) (.clock last) reading
      (if started.after m.policy.waitBudget ≤ reading.1 then late started reading.1
        else resting started reading.1 false)
  | draw {started now low high} (drawn) :
    Step m key (resting started now false) (.draw low high) drawn (resting started now true)
  | sleep {started now drawn} (delay : Manager.PollDelay) (woken) :
    Step m key (resting started now drawn)
      (.sleep (now.after (min delay.1 ((started.after m.policy.waitBudget).since now)))) woken (probing started woken.1)
  | late {started now} (reading) :
    Step m key (late started now) (.clock now) reading
      (reporting (ended (.error (.waitTooLong key (reading.1.since started)))))
  | report {next} (message) : Step m key (reporting next) (.warn message) () next

end Stage

def LockAttempt.stage (onContended : Stage) : LockAttempt → Stage
  | acquired lock => .ended (.ok (.owner lock))
  | contended => onContended
  | unavailable => .ended (.ok .bypass)

namespace Manager

open Stage (Step)

variable (m : Manager) {key : String} {miss contended held free stage : Stage} {started now last : Instant}

def firstStage : Stage := if m.policy.disabled then .ended (.ok .bypass) else .outside

theorem stages_warn (message : String) (next : Stage) :
    (Action.warn message).Conforms (Step m key) (fun stage _ => stage = next) (.reporting next) :=
  fun _ => ⟨next, .report message, rfl⟩

theorem stages_checkCache (step : ∀ answer, Step m key stage (.cache (.get key)) answer (.afterGet miss answer)) :
    (checkCache key).Conforms (Step m key)
      (fun stage found => stage = found.elim miss fun value => .ended (.ok (.hit value))) stage := by
  intro answer
  refine ⟨_, step answer, ?_⟩
  rcases answer with e | _ | value
  · exact (m.stages_warn _ miss).bind fun _ _ same => same
  · exact rfl
  · exact rfl

theorem stages_tryLock (step : ∀ answer, Step m key stage
      (.cache (.acquire key m.policy.lockDuration m.policy.lockTries)) answer (.afterAcquire contended answer)) :
    (m.tryLock key).Conforms (Step m key) (fun stage attempt => stage = attempt.stage contended) stage := by
  intro answer
  refine ⟨_, step answer, ?_⟩
  rcases answer with e | _ | lock
  · exact (m.stages_warn _ (.ended (.ok .bypass))).bind fun _ _ same => same
  · exact rfl
  · exact rfl

theorem stages_isLocked
    (step : ∀ answer, Step m key stage (.cache (.isHeld key)) answer (.afterProbe held free answer)) :
    (isLocked key).Conforms (Step m key) (fun stage isHeld => stage = if isHeld then held else free) stage := by
  intro answer
  refine ⟨_, step answer, ?_⟩
  rcases answer with e | _ | _
  · exact (m.stages_warn _ free).bind fun _ _ same => same
  · exact rfl
  · exact rfl

/-- After a look a caller is done or sees whether the deadline has come. -/
theorem stages_poll : (m.poll key).Conforms (Step m key)
    (fun stage found => stage = found.elim (.checking started last) fun found => .ended (.ok found))
    (.probing started last) := by
  refine (m.stages_isLocked .probing).bind fun stage isHeld same => ?_
  subst same
  cases isHeld with
  | true => exact rfl
  | false =>
    refine (m.stages_checkCache .looking).bind fun stage found same => ?_
    subst same
    cases found with
    | some value => exact rfl
    | none =>
      refine (m.stages_tryLock .trying).bind fun stage attempt same => ?_
      subst same
      cases attempt with
      | acquired | contended | unavailable => exact rfl

theorem stages_pollDelay (attempt : Nat) : (pollDelay attempt).Conforms (Step m key)
    (fun stage _ => ∃ drawn, stage = .resting started now drawn) (.resting started now false) := by
  rw [pollDelay]
  split
  · exact fun answer => ⟨_, .draw answer, true, rfl⟩
  · exact ⟨false, rfl⟩

theorem stages_giveUp : (giveUp key started now).Conforms (Step m key) (fun stage result => stage = .ended result)
    (.late started now) :=
  fun reading => ⟨_, .late reading, (m.stages_warn _ _).bind fun _ _ same => same⟩

theorem stages_awaitOwner (attempt : Nat) :
    (m.awaitOwner key started (started.after m.policy.waitBudget) last attempt).Conforms (Step m key)
      (fun stage result => stage = .ended result) (.probing started last) := by
  induction left : (started.after m.policy.waitBudget).nanos - last.nanos
    using Nat.strongRecOn generalizing last attempt with
  | ind left ih =>
    rw [awaitOwner]
    refine m.stages_poll.bind fun stage found same => ?_
    subst same
    cases found with
    | some found => exact rfl
    | none =>
      intro reading
      refine ⟨_, .checking reading, ?_⟩
      obtain ⟨now, later⟩ := reading
      by_cases overdue : started.after m.policy.waitBudget ≤ now
      · simp only [Program.bind_done, dif_pos overdue, if_pos overdue]
        exact m.stages_giveUp
      · simp only [Program.bind_done, dif_neg overdue, if_neg overdue]
        refine (m.stages_pollDelay attempt).bind ?_
        rintro _ delay ⟨drawn, rfl⟩ woken
        refine ⟨_, .sleep delay woken, ?_⟩
        refine ih ((started.after m.policy.waitBudget).nanos - woken.1.nanos) ?_ (attempt + 1) rfl
        -- The sleep takes some time, so that less of the wait is left.
        have long := delay.2.1
        have slept := woken.2
        simp only [Instant.le_def, Instant.after, Instant.since, Duration.le_def, Duration.nanos_min,
          Duration.ofMillis, Duration.nanos_ofNanos, Duration.maxNanos] at left overdue later slept long ⊢
        omega

theorem stages_wait : (m.wait key).Conforms (Step m key) (fun stage result => stage = .ended result) .lost := by
  intro reading
  refine ⟨_, .lost reading, ?_⟩
  obtain ⟨started, _⟩ := reading
  simp only [Program.bind_done]
  cases ends : started.add? m.policy.waitBudget with
  | some deadline => exact Instant.eq_after_of_add? ends ▸ m.stages_awaitOwner 0
  | none => exact fun answer => answer.elim

theorem stages_getOrLock : (m.getOrLock key).Conforms (Step m key) (fun stage result => stage = .ended result)
    m.firstStage := by
  rw [getOrLock, firstStage]
  split
  · exact rfl
  · refine (m.stages_checkCache .outside).bind fun stage found same => ?_
    subst same
    cases found with
    | some value => exact rfl
    | none =>
      refine (m.stages_tryLock .missed).bind fun stage attempt same => ?_
      subst same
      cases attempt with
      | acquired | unavailable => exact rfl
      | contended => exact m.stages_wait

end Manager

end Cache

end AccountCache
