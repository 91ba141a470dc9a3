import AccountCache.Cache.Manager
import AccountCache.Proofs.Interleaving.Interleaved

namespace AccountCache

variable {σ α : Type} {moves : Discipline effects σ}

/-- Whether quiet effects leave a program where it stands: clocks, chance,
sleep and warnings, which a rule has to allow at any time. -/
def Discipline.Patient (moves : Discipline effects σ) : Prop :=
  ∀ (s : σ) (e : Effect), e.IsQuiet → ∀ answer : e.Answer, moves s e answer s

theorem Discipline.Patient.conforms {s : σ} {ends : σ → α → Prop} {e : Effect} {next : e.Answer → Action α}
    (patient : moves.Patient) (quiet : e.IsQuiet)
    (rest : ∀ answer, (next answer).Conforms moves ends s) :
    Program.Conforms (I := effects) moves ends (.ask e next) s :=
  fun answer => ⟨s, patient s e quiet answer, rest answer⟩

namespace Cache

/-- Whether a request changes no entry but those of locks. -/
def Request.IsLook : Request → Prop
  | get _ | acquire .. | release _ | isHeld _ => True
  | _ => False

theorem Policy.problem?_eq_none {p : Policy} (usable : p.problem? = none) :
    p.defaultTtl.seconds ≠ 0 ∧ p.nilTtl.seconds ≠ 0 ∧ p.lockDuration.nanos ≠ 0 := by
  rw [Policy.problem?] at usable
  split at usable
  · cases usable
  · next long =>
    split at usable
    · cases usable
    · next longNil =>
      split at usable
      · cases usable
      · next lasting =>
        refine ⟨long, longNil, fun zero => lasting ?_⟩
        rw [Duration.millis, zero]

theorem Manager.seconds_ne_zero (m : Manager) (i : Item) : m.seconds i ≠ 0 := by
  rw [Manager.seconds]
  split
  · exact (Policy.problem?_eq_none m.usable).1
  · next own => exact own

namespace Manager

variable (m : Manager) {key : String} {s : σ} (patient : moves.Patient)

include patient

theorem conforms_checkCache {ends : σ → Option Cached → Prop}
    (found : ∀ value, ∃ s', moves s (.cache (.get key)) (.ok value) s' ∧ ends s' (value.map .ofBytes))
    (failed : ∀ e, ∃ s', moves s (.cache (.get key)) (.error e) s' ∧ ends s' none) :
    (checkCache key).Conforms moves ends s := by
  intro answer
  cases answer with
  | ok value => exact found value
  | error e =>
    obtain ⟨s', move, after⟩ := failed e
    exact ⟨s', move, patient.conforms (e := .warn _) trivial fun _ => after⟩

theorem conforms_tryLock {ends : σ → LockAttempt → Prop}
    (granted : ∀ lock, ∃ s', moves s (.cache (.acquire key m.policy.lockDuration m.policy.lockTries))
      (.ok (some lock)) s' ∧ ends s' (.acquired lock))
    (refused : ∃ s', moves s (.cache (.acquire key m.policy.lockDuration m.policy.lockTries)) (.ok none) s' ∧
      ends s' .contended)
    (failed : ∀ e, ∃ s', moves s (.cache (.acquire key m.policy.lockDuration m.policy.lockTries))
      (.error e) s' ∧ ends s' .unavailable) :
    (m.tryLock key).Conforms moves ends s := by
  intro answer
  rcases answer with e | _ | lock
  · obtain ⟨s', move, after⟩ := failed e
    exact ⟨s', move, patient.conforms (e := .warn _) trivial fun _ => after⟩
  · exact refused
  · exact granted lock

theorem conforms_isLocked {ends : σ → Bool → Prop}
    (probed : ∀ held, ∃ s', moves s (.cache (.isHeld key)) (.ok held) s' ∧ ends s' held)
    (failed : ∀ e, ∃ s', moves s (.cache (.isHeld key)) (.error e) s' ∧ ends s' false) :
    (isLocked key).Conforms moves ends s := by
  intro answer
  cases answer with
  | ok held => exact probed held
  | error e =>
    obtain ⟨s', move, after⟩ := failed e
    exact ⟨s', move, patient.conforms (e := .warn _) trivial fun _ => after⟩

theorem conforms_pollDelay (attempt : Nat) :
    (pollDelay attempt).Conforms moves (fun s' _ => s' = s) s := by
  rw [pollDelay]
  split
  · exact patient.conforms (e := .draw ..) trivial fun _ => rfl
  · exact rfl

variable {ends : σ → Except Error Lookup → Prop}

theorem conforms_giveUp (started now : Instant)
    (late : ∀ waited, ends s (.error (.waitTooLong key waited))) :
    (giveUp key started now).Conforms moves ends s :=
  patient.conforms (e := .clock now) trivial fun _ =>
    patient.conforms (e := .warn _) trivial fun _ => late _

/-- A caller who waits looks, sleeps and looks again, until it finds
something or gives up. -/
theorem conforms_awaitOwner (waits : σ → Prop) (started deadline last : Instant) (attempt : Nat)
    (polls : ∀ s, waits s → (m.poll key).Conforms moves
      (fun s found => found.elim (waits s) fun found => ends s (.ok found)) s)
    (late : ∀ s, waits s → ∀ waited, ends s (.error (.waitTooLong key waited))) (waiting : waits s) :
    (m.awaitOwner key started deadline last attempt).Conforms moves ends s := by
  induction left : deadline.nanos - last.nanos using Nat.strongRecOn generalizing s last attempt with
  | ind left ih =>
    rw [awaitOwner]
    refine (polls s waiting).bind fun s found after => ?_
    cases found with
    | some found => exact after
    | none =>
      refine patient.conforms (e := .clock last) trivial fun ⟨now, later⟩ => ?_
      by_cases ended : deadline ≤ now
      · simp only [Program.bind_done, dif_pos ended]
        exact conforms_giveUp patient started now (late s after)
      · simp only [Program.bind_done, dif_neg ended]
        refine (conforms_pollDelay patient attempt).bind ?_
        rintro _ ⟨delay, bounds⟩ rfl
        refine patient.conforms (e := .sleep _) trivial fun ⟨woken, slept⟩ => ?_
        refine ih (deadline.nanos - woken.nanos) ?_ woken (attempt + 1) after rfl
        have long := bounds.1
        simp only [Instant.le_def, Instant.after, Instant.since, Duration.le_def, Duration.nanos_min,
          Duration.ofMillis, Duration.nanos_ofNanos, Duration.maxNanos] at ended later slept long
        omega

theorem conforms_wait (waits : σ → Prop)
    (polls : ∀ s, waits s → (m.poll key).Conforms moves
      (fun s found => found.elim (waits s) fun found => ends s (.ok found)) s)
    (late : ∀ s, waits s → ∀ waited, ends s (.error (.waitTooLong key waited))) (waiting : waits s) :
    (m.wait key).Conforms moves ends s := by
  refine patient.conforms (e := .clock .start) trivial ?_
  rintro ⟨started, _⟩
  simp only [Program.bind_done]
  cases started.add? m.policy.waitBudget with
  | some deadline => exact m.conforms_awaitOwner patient waits started deadline started 0 polls late waiting
  | none =>
    intro answer
    cases answer

section

variable (looks : ∀ r : Request, r.IsLook → ∀ answer, moves s (.cache r) answer s)

include looks

theorem conforms_checkCache_of_looks : (checkCache key).Conforms moves (fun s' _ => s' = s) s :=
  conforms_checkCache patient (fun _ => ⟨s, looks (.get key) trivial _, rfl⟩)
    fun _ => ⟨s, looks (.get key) trivial _, rfl⟩

theorem conforms_tryLock_of_looks : (m.tryLock key).Conforms moves (fun s' _ => s' = s) s :=
  m.conforms_tryLock patient (fun _ => ⟨s, looks (.acquire ..) trivial _, rfl⟩)
    ⟨s, looks (.acquire ..) trivial _, rfl⟩ fun _ => ⟨s, looks (.acquire ..) trivial _, rfl⟩

theorem conforms_poll_of_looks : (m.poll key).Conforms moves (fun s' _ => s' = s) s := by
  have probe : (isLocked key).Conforms moves (fun s' _ => s' = s) s :=
    conforms_isLocked patient (fun _ => ⟨s, looks (.isHeld key) trivial _, rfl⟩)
      fun _ => ⟨s, looks (.isHeld key) trivial _, rfl⟩
  refine probe.bind fun _ held same => ?_
  subst same
  cases held with
  | true => exact rfl
  | false =>
    refine (conforms_checkCache_of_looks patient looks).bind fun _ found same => ?_
    subst same
    cases found with
    | some value => exact rfl
    | none =>
      refine (m.conforms_tryLock_of_looks patient looks).bind fun _ outcome same => ?_
      subst same
      cases outcome with
      | acquired | unavailable | contended => exact rfl

/-- A caller stays where it stands if each of its looks leaves it there, for
waiting is nothing but looks and quiet effects. -/
theorem conforms_getOrLock_of_looks : (m.getOrLock key).Conforms moves (fun s' _ => s' = s) s := by
  rw [getOrLock]
  split
  · exact rfl
  · refine (conforms_checkCache_of_looks patient looks).bind fun _ found same => ?_
    subst same
    cases found with
    | some value => exact rfl
    | none =>
      refine (m.conforms_tryLock_of_looks patient looks).bind fun s' outcome same => ?_
      subst same
      cases outcome with
      | acquired | unavailable => exact rfl
      | contended =>
        refine m.conforms_wait patient (· = s') ?_ (fun _ same _ => same) rfl
        rintro _ rfl
        refine (m.conforms_poll_of_looks patient looks).mono fun _ found same => ?_
        cases found with
        | none | some => exact same

end

end Manager

end Cache

end AccountCache
