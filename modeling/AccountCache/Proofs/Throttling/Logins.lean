import AccountCache.Proofs.Throttling.Windows

namespace AccountCache

open Cache (Stored MemoryStore longest)
open Simulation (World Circumstances Runs)
open Program (Minds)

/-- Whether an effect leaves the counters of failed logins alone. -/
def Effect.SparesLogins (e : Effect) : Prop :=
  ∀ address, ¬e.Renews (Key.loginAttempts address) ∧ ¬e.Alters (Key.loginAttempts address)

theorem Effect.sparesLogins_of_keys {r : Cache.Request} (away : ∀ address, Key.loginAttempts address ∉ r.keys) :
    Effect.SparesLogins (.cache r) := by
  refine fun address => ⟨fun renews => ?_, fun alters => ?_⟩
  · cases r with
    | get | increment | ttl | isHeld => exact renews
    | _ => exact away address renews
  · cases r with
    | get | delete | expire | ttl | release | isHeld => exact alters
    | _ => exact away address alters

namespace Simulation

variable {c : Circumstances} {w w' : World} {α : Type}

namespace World

variable {key : String}

theorem Reliable.increment (reliable : w.Reliable) {answer : (Effect.cache (.increment key)).Answer}
    (answers : w.Answers (.cache (.increment key)) answer w') {n : Int} (notNegative : 0 ≤ n) (small : n < maxInt64)
    (stands : w.cached? key = none ∧ n = 0 ∨ ∃ deadline, w.cached? key = some ⟨.ofText (toString n), deadline⟩) :
    answer = .ok (n + 1) ∧ ∃ deadline, w'.cached? key = some ⟨.ofText (toString (n + 1)), deadline⟩ := by
  obtain ⟨_, _, values, view, answered, view'⟩ := reliable.answers_values answers rfl
  have answered : (values.increment w.clock key).1 = answer := Option.some.inj answered
  have after : w'.cached? key = (values.increment w.clock key).2.live? w.clock key := view' key
  rw [view] at stands
  rw [← answered, after]
  obtain ⟨missing, rfl⟩ | ⟨deadline, there⟩ := stands
  · obtain ⟨first, started⟩ := MemoryStore.increment_of_missing missing
    exact ⟨first, none, started⟩
  · have counted := Cache.counter?_toString (n := n) (by simp only [minInt64]; omega) (by omega)
    obtain ⟨next, up⟩ := MemoryStore.increment_of_counter there counted small
    exact ⟨next, deadline, up⟩

theorem Reliable.expire (reliable : w.Reliable) {ttl : Duration} {answer : (Effect.cache (.expire key ttl)).Answer}
    (answers : w.Answers (.cache (.expire key ttl)) answer w') (positive : ttl.seconds ≠ 0) {e : Stored}
    (there : w.cached? key = some e) :
    answer = .ok true ∧ w'.cached? key = some ⟨e.value, some (w.clock.after (.ofSeconds ttl.seconds))⟩ := by
  obtain ⟨_, _, values, view, answered, view'⟩ := reliable.answers_values answers rfl
  obtain ⟨found, served, rfl⟩ := Option.map_eq_some_iff.1 answered
  obtain ⟨rfl, prolonged⟩ := MemoryStore.expire_of_live ((view key).symm.trans there) served
  exact ⟨rfl, (view' key).trans (prolonged positive)⟩

theorem Reliable.ttl (reliable : w.Reliable) {answer : (Effect.cache (.ttl key)).Answer}
    (answers : w.Answers (.cache (.ttl key)) answer w') : w'.Reliable ∧ (∀ k, w'.cached? k = w.cached? k) ∧
      (w.cached? key = none → answer = .ok (-2)) ∧ ∀ e deadline, w.cached? key = some e → e.deadline = some deadline →
        deadline ≤ w.clock.after (.ofSeconds longest) → ∃ seconds, answer = .ok seconds ∧ 0 ≤ seconds := by
  obtain ⟨steady, _, values, view, answered, view'⟩ := reliable.answers_values answers rfl
  have answered : .ok (values.ttl w.clock key) = answer := Option.some.inj answered
  refine ⟨steady, fun k => (view' k).trans (view k).symm, fun missing => ?_, fun e deadline there ends short => ?_⟩
  · rw [← answered]
    simp only [MemoryStore.ttl, (view key).symm.trans missing]
  · exact ⟨_, answered.symm, MemoryStore.ttl_nonneg ((view key).symm.trans there) ends short⟩

/-- Whoever spares the counters of failed logins leaves them as they are. -/
theorem Reliable.cached?_of_sparesLogins (reliable : w.Reliable) {r : Cache.Request}
    {answer : (Effect.cache r).Answer} (answers : w.Answers (.cache r) answer w')
    (spares : Effect.SparesLogins (.cache r)) (address : String) :
    w'.cached? (Key.loginAttempts address) = w.cached? (Key.loginAttempts address) := by
  obtain ⟨renews, alters⟩ := spares address
  by_cases named : Key.loginAttempts address ∈ r.keys
  · cases r with
    | get key => exact (reliable.get answers).2.2.1 _
    | ttl key => exact (reliable.ttl answers).2.1 _
    | isHeld key => exact absurd (List.mem_singleton.1 named) (Key.lock_ne_loginAttempts key address).symm
    | increment key => exact absurd named alters
    | _ => exact absurd named renews
  · exact reliable.cached?_eq answers named

end World

/-- What time and every request of an action leave is left by its run. -/
theorem Runs.keeps {kind : Effect → Prop} {inv : World → Prop} {p : Action α} {value : α} (runs : Runs c p w value w')
    (minds : p.Minds (fun _ => True) kind) (holds : inv w) (waits : ∀ {w} later, inv w → inv (w.advanceTo later))
    (serves : ∀ {w e answer w'}, kind e → inv w → w.Serves c e answer w' → inv w') : inv w' := by
  induction runs with
  | done => exact holds
  | ask next _ ih =>
    obtain ⟨later, _, served⟩ := next
    exact ih (minds.2 _ trivial) (serves minds.1 (waits later holds) served)

end Simulation

/-- Whether the counter of every email stands for the failures in its
window. There is a counter exactly as long as the window is open. -/
structure Tallies (lockTtl : Duration) (log : List Failure) (w : World) : Prop where
  reliable : w.Reliable
  past : ∀ failure ∈ log, failure.moment ≤ w.clock
  counted : ∀ address, w.cached? (Key.loginAttempts address) = tally? lockTtl w.clock (failures address log)

namespace Tallies

variable {lockTtl : Duration} {log : List Failure} {c : Circumstances} {w w' : World}

theorem advanceTo (tallies : Tallies lockTtl log w) (later : Instant) : Tallies lockTtl log (w.advanceTo later) where
  reliable := tallies.reliable.advanceTo later
  past failure member := Instant.le_trans (tallies.past failure member) (Instant.le_max_left ..)
  counted address := by
    have order : w.clock ≤ (w.advanceTo later).clock := Instant.le_max_left ..
    rw [World.cached?_advanceTo, tallies.counted, tally?_of_le order]

theorem serves (tallies : Tallies lockTtl log w) {e : Effect} {answer : e.Answer} (spares : e.SparesLogins)
    (served : w.Serves c e answer w') : Tallies lockTtl log w' := by
  cases served with
  | database => exact ⟨⟨tallies.reliable.memory, tallies.reliable.faultless⟩, tallies.past, tallies.counted⟩
  | wallClock => exact tallies
  | other foreign answers =>
    cases e with
    | database r => exact absurd rfl (foreign r)
    | cache r =>
      have same := answers.clock_eq.1
      exact ⟨tallies.reliable.cache answers, same ▸ tallies.past, fun address => by
        rw [tallies.reliable.cached?_of_sparesLogins answers spares, tallies.counted, same]⟩
    | _ => exact answers.eq_of_isQuiet trivial ▸ tallies

end Tallies

namespace Accounts

/-- Whether an operation counts a failed login. -/
def Service.CountsFailure {α : Type} : Service α → Prop
  | .countLoginAttempt _ => True
  | _ => False

/-- What users of a service can come to who act one after the other, and the
logins that failed on the way, the last first. A failure is counted at the
moment at which it happens; every other operation takes its time. -/
inductive Logins (a : Accounts) (c : Circumstances) (world : World) : List Failure → World → Prop
  | start : Logins a c world [] world
  | wait {log w} (later : Instant) : Logins a c world log w → Logins a c world log (w.advanceTo later)
  | fail {log w outcome w'} (address : String) : Logins a c world log w →
    w.run? (a.countLoginAttempt address).run = some (outcome, w') → Logins a c world (⟨address, w.clock⟩ :: log) w'
  | beside {β log w w'} {outcome : Except Error β} (service : Service β) : Logins a c world log w →
    ¬service.CountsFailure → Runs c (service.perform a).run w outcome w' → Logins a c world log w'

variable {a : Accounts} {c : Circumstances} {world w w' : World} {log : List Failure} {address : String} {α : Type}

theorem customs_sparesLogins (a : Accounts) : a.Customs (fun _ => True) Effect.SparesLogins where
  quiet e quiet _ := by
    cases e with
    | cache | database => cases quiet
    | _ => exact fun _ => ⟨id, id⟩
  wait _ _ _ := fun _ => ⟨id, id⟩
  get _ := fun _ => ⟨id, id⟩
  isHeld _ := fun _ => ⟨id, id⟩
  acquire key := Effect.sparesLogins_of_keys fun address named =>
    Key.lock_ne_loginAttempts key address (List.mem_singleton.1 named).symm
  release lock := Effect.sparesLogins_of_keys fun address named =>
    Key.lock_ne_loginAttempts lock.cacheKey address (List.mem_singleton.1 named).symm
  query _ _ := fun _ => ⟨id, id⟩
  delete data := Effect.sparesLogins_of_keys fun address named =>
    have ⟨d, _, same⟩ := List.mem_map.1 named
    d.key_ne_loginAttempts address same
  fill d _ _ _ := Effect.sparesLogins_of_keys fun address named =>
    d.key_ne_loginAttempts address (List.mem_singleton.1 named).symm
  mark d _ _ := Effect.sparesLogins_of_keys fun address named =>
    d.key_ne_loginAttempts address (List.mem_singleton.1 named).symm
  sessions s bytes now later _ _ _ _ := Effect.sparesLogins_of_keys fun address named => by
    rw [Cache.Request.keys, List.map_map] at named
    obtain ⟨item, member, own⟩ := List.mem_map.1 named
    obtain ⟨d, _, key, _⟩ := mem_sessionItems member
    exact d.key_ne_loginAttempts address (key.symm.trans own)
  lifetime _ := fun _ => ⟨id, id⟩

theorem Service.minds_sparesLogins (service : Service α) (aside : ¬service.CountsFailure) :
    (service.perform a).run.Minds (fun _ => True) Effect.SparesLogins := by
  have customs := customs_sparesLogins a
  cases service with
  | job job =>
    refine job.minds_of_grants customs (fun _ _ => ⟨id, id⟩) fun bytes _ => ?_
    exact Effect.sparesLogins_of_keys fun address named =>
      Datum.permission.key_ne_loginAttempts address (List.mem_singleton.1 named).symm
  | countLoginAttempt address => exact absurd trivial aside
  | isLoginLocked address => exact minds_isLoginLocked customs address

variable (enabled : a.cache.policy.disabled = false)

include enabled

theorem countLoginAttempt_eq (address : String) : (a.countLoginAttempt address).run =
    .ask (.cache (.increment (Key.loginAttempts address))) fun
      | .ok n => .ask (.cache (.expire (Key.loginAttempts address) a.login.lockTtl)) fun
        | .ok _ => .done (.ok n)
        | .error e => .done (.error (.cache e))
      | .error e => .done (.error (.cache e)) :=
  (Program.bind_done_right _).symm.trans (countLoginAttempt_bind enabled address Program.done)

/-- A failure is counted if the clock can represent the end of
its window. -/
theorem exists_countLoginAttempt (reliable : w.Reliable) {deadline : Instant}
    (ends : w.clock.add? (.ofSeconds a.login.lockTtl.seconds) = some deadline) (address : String) :
    ∃ outcome w', w.run? (a.countLoginAttempt address).run = some (outcome, w') := by
  obtain ⟨answer, v, counted, counts⟩ :=
    reliable.exists_answer? (r := .increment (Key.loginAttempts address)) (List.forall_mem_nil _)
  rw [countLoginAttempt_eq enabled, World.run?_ask counted]
  cases answer with
  | error e => exact ⟨_, _, rfl⟩
  | ok n =>
    obtain ⟨answer, w', prolonged, _⟩ := (reliable.cache counts).exists_answer?
      (r := .expire (Key.loginAttempts address) a.login.lockTtl)
      (List.forall_mem_singleton.2 ⟨deadline, counts.clock_eq.1 ▸ ends⟩)
    rw [World.run?_ask prolonged]
    cases answer with
    | ok | error => exact ⟨_, _, rfl⟩

variable (positive : a.login.lockTtl.seconds ≠ 0) (whole : .ofSeconds a.login.lockTtl.seconds = a.login.lockTtl)

include positive whole

/-- Who counts a failure is told how many there are in its window, and the
counter stands for them. -/
theorem fail_of_tallies (tallies : Tallies a.login.lockTtl log w) (few : log.length + 1 < 2 ^ 63)
    {outcome : Except Error Int} (counts : w.run? (a.countLoginAttempt address).run = some (outcome, w')) :
    outcome = .ok (countFailures a.login.lockTtl (w.clock :: failures address log)) ∧
      Tallies a.login.lockTtl (⟨address, w.clock⟩ :: log) w' := by
  rw [countLoginAttempt_eq enabled, World.run?] at counts
  obtain ⟨⟨answer, v⟩, counted, counts⟩ := Option.bind_eq_some_iff.1 counts
  have up := World.Answers.of_answer? counted
  have steady := tallies.reliable.cache up
  have stands := tally?_stands a.login.lockTtl w.clock (failures address log)
  rw [← tallies.counted] at stands
  have most := Nat.le_trans (standing_le_length a.login.lockTtl w.clock (failures address log))
    (length_failures_le address log)
  obtain ⟨rfl, _, there⟩ := tallies.reliable.increment up (Int.natCast_nonneg _) (by simp only [maxInt64]; omega) stands
  obtain ⟨⟨answer, w''⟩, prolonged, ended⟩ := Option.bind_eq_some_iff.1 counts
  have later := World.Answers.of_answer? prolonged
  obtain ⟨rfl, here⟩ := steady.expire later positive there
  have same := up.clock_eq.1
  have same' := later.clock_eq.1.trans same
  obtain ⟨rfl, rfl⟩ := Prod.mk.inj (Option.some.inj ended)
  refine ⟨by rw [countFailures_cons]; rfl, steady.cache later, ?_, fun other => ?_⟩
  · rw [same']
    exact List.forall_mem_cons.2 ⟨Instant.le_refl _, tallies.past⟩
  · by_cases own : address = other
    · subst own
      have lasting : a.login.lockTtl.nanos ≠ 0 := by
        intro none
        rw [Duration.seconds, none] at positive
        exact positive rfl
      rw [here, failures_cons_self, same', same, whole, tally?_cons_self lasting, countFailures_cons]
      rfl
    · have differ : Key.loginAttempts other ≠ Key.loginAttempts address := fun same =>
        own (Key.loginAttempts_injective same).symm
      rw [steady.cached?_eq later fun named => differ (List.mem_singleton.1 named),
        tallies.reliable.cached?_eq up fun named => differ (List.mem_singleton.1 named), tallies.counted, same',
        failures_cons_of_ne own]

/-- The counters stand for the failures all along, since every service but
the counting of a failure leaves them alone. -/
theorem Logins.tallies (logins : Logins a c world log w) (start : Tallies a.login.lockTtl [] world)
    (few : log.length < 2 ^ 63) : Tallies a.login.lockTtl log w := by
  induction logins with
  | start => exact start
  | wait later _ ih => exact (ih few).advanceTo later
  | fail address _ counts ih =>
    rw [List.length_cons] at few
    exact (fail_of_tallies enabled positive whole (ih (by omega)) few counts).2
  | beside service _ aside runs ih =>
    exact runs.keeps (service.minds_sparesLogins aside) (ih few) (fun later tallies => tallies.advanceTo later)
      fun spares tallies served => tallies.serves spares served

omit positive in
/-- Whoever asks is told that a login is locked if there were too many
failures in an open window. -/
theorem isLoginLocked_of_tallies (tallies : Tallies a.login.lockTtl log w) (few : log.length < 2 ^ 63)
    (short : a.login.lockTtl.seconds ≤ longest) (address : String) :
    ∃ w', w.run? (a.isLoginLocked address).run =
      some (.ok (decide (IsOpen a.login.lockTtl w.clock (failures address log) ∧
        a.login.maxAttempts ≤ countFailures a.login.lockTtl (failures address log))), w') := by
  have here : ¬a.cache.policy.disabled = true := Bool.eq_false_iff.1 enabled
  obtain ⟨answer, v, told, asks⟩ :=
    tallies.reliable.exists_answer? (r := .ttl (Key.loginAttempts address)) (List.forall_mem_nil _)
  obtain ⟨steady, same, missing, living⟩ := tallies.reliable.ttl asks
  have lifetime : ∀ seconds, answer = .ok seconds → w.run? (Operation.cache
      (a.cache.lifetime (Key.loginAttempts address))).run = some (.ok (.ofSeconds seconds), v) := by
    rintro seconds rfl
    have timed : w.run? (a.cache.lifetime (Key.loginAttempts address)) = some (.ok (.ofSeconds seconds), v) := by
      rw [Cache.Manager.lifetime, if_neg here]
      exact World.run?_ask told
    exact World.run?_cache timed
  have counted := tallies.counted address
  by_cases isOpen : IsOpen a.login.lockTtl w.clock (failures address log)
  · rw [tally?, if_pos isOpen] at counted
    have window := isOpen
    obtain ⟨last, latest, _⟩ := window
    obtain ⟨failure, member, moment⟩ := exists_of_mem_failures (List.mem_of_mem_head? latest)
    have past := tallies.past failure member
    have within : last.after a.login.lockTtl ≤ w.clock.after (.ofSeconds longest) := by
      rw [moment] at past
      rw [← whole]
      simp only [Instant.le_def, Instant.after, Duration.ofSeconds, Duration.nanos_ofNanos, Duration.maxNanos]
        at past ⊢
      omega
    obtain ⟨seconds, answered, left⟩ := living _ _ counted (congrArg (Option.map _) latest) within
    obtain ⟨found, w', read, looks⟩ :=
      steady.exists_answer? (r := .get (Key.loginAttempts address)) (List.forall_mem_nil _)
    obtain ⟨_, rfl, _⟩ := steady.get looks
    have looked : v.run? (a.cache.get (Key.loginAttempts address)) = some (some (.ofBytes (.ofText (toString
        (countFailures a.login.lockTtl (failures address log) : Int)))), w') := by
      rw [Cache.Manager.get, if_neg here]
      refine (World.run?_ask read).trans ?_
      rw [same, counted]
      rfl
    have most := Nat.le_trans (countFailures_le_length a.login.lockTtl (failures address log))
      (length_failures_le address log)
    have number := Cache.counter?_toString (n := countFailures a.login.lockTtl (failures address log))
      (by simp only [minInt64]; omega) (by simp only [maxInt64]; omega)
    refine ⟨w', ?_⟩
    rw [isLoginLocked, World.run?_andThen (lifetime _ answered)]
    simp only [Cache.Lifetime.isLive_ofSeconds.2 left, if_true]
    refine (World.run?_liftThen looked).trans ?_
    simp only [Cache.attempts?_ofBytes number, isOpen, true_and]
    rfl
  · rw [tally?, if_neg isOpen] at counted
    refine ⟨v, ?_⟩
    rw [isLoginLocked, World.run?_andThen (lifetime _ (missing counted)), decide_eq_false fun both => isOpen both.1]
    rfl

omit enabled positive whole in
/-- Whoever counts a failure is told how many failures of logins with the
same email there are in its window, that one included, as long as the clock
can represent the window's end. Whoever asks whether logins with an email
are locked is told that they are exactly if a window is open and there are
as many failures in it as the policy allows. Failures of logins with other
emails do not matter. -/
theorem throttles_logins {n : Nat} (enabled : a.cache.policy.disabled = false)
    (lasts : a.login.lockTtl = .ofSeconds n) (positive : n ≠ 0) (short : n ≤ 9000000000000000)
    (reliable : world.Reliable) (fresh : ∀ address, world.cached? (Key.loginAttempts address) = none)
    (logins : Logins a c world log w) (few : log.length < 2 ^ 63) (address : String) :
    (log.length + 1 < 2 ^ 63 → ∀ deadline, w.clock.add? a.login.lockTtl = some deadline → ∃ w',
      w.run? (a.countLoginAttempt address).run =
        some (.ok (countFailures a.login.lockTtl (w.clock :: failures address log)), w')) ∧
    ∃ w', w.run? (a.isLoginLocked address).run =
      some (.ok (decide (IsOpen a.login.lockTtl w.clock (failures address log) ∧
        a.login.maxAttempts ≤ countFailures a.login.lockTtl (failures address log))), w') := by
  have seconds : a.login.lockTtl.seconds = n := by
    rw [lasts, Duration.seconds_ofSeconds]
    omega
  have whole : .ofSeconds a.login.lockTtl.seconds = a.login.lockTtl := by rw [seconds, lasts]
  have lasting : a.login.lockTtl.seconds ≠ 0 := seconds ▸ positive
  have start : Tallies a.login.lockTtl [] world :=
    ⟨reliable, List.forall_mem_nil _, fun address => (fresh address).trans (if_neg not_isOpen_nil).symm⟩
  have tallies := logins.tallies enabled lasting whole start few
  refine ⟨fun more deadline ends => ?_, ?_⟩
  · obtain ⟨outcome, w', counts⟩ :=
      exists_countLoginAttempt enabled tallies.reliable (whole.symm ▸ ends) address
    obtain ⟨rfl, _⟩ := fail_of_tallies enabled lasting whole tallies more counts
    exact ⟨w', counts⟩
  · exact isLoginLocked_of_tallies enabled whole tallies few (by simp only [seconds, longest]; omega) address

def strict : Accounts := ⟨default, ⟨2, .ofSeconds 300⟩⟩

omit enabled positive whole in
/-- A second failure that comes after more than three minutes locks logins,
also in the last half second of the five minutes after it. -/
theorem throttles_logins_after_two : ∃ w w', Logins strict ⟨False, fun _ => False, False⟩ {}
      [⟨"ann", ⟨200000000000⟩⟩, ⟨"ann", .start⟩] w ∧ w.clock = ⟨499700000000⟩ ∧
    w.run? (strict.isLoginLocked "ann").run = some (.ok true, w') := by
  have reliable : World.Reliable {} := ⟨⟨_, _, rfl⟩, fun _ => rfl⟩
  have fresh : ∀ address, ({} : World).cached? (Key.loginAttempts address) = none := fun _ => rfl
  have start : Tallies strict.login.lockTtl [] {} :=
    ⟨reliable, List.forall_mem_nil _, fun address => (fresh address).trans (if_neg not_isOpen_nil).symm⟩
  obtain ⟨_, v, first⟩ := exists_countLoginAttempt (a := strict) rfl reliable rfl "ann"
  have once := (Logins.start (c := ⟨False, fun _ => False, False⟩)).fail "ann" first
  have paused : (v.advanceTo ⟨200000000000⟩).clock = ⟨200000000000⟩ := by
    rw [World.advanceTo, World.clock_eq_of_run? first]
    rfl
  have waited := once.wait ⟨200000000000⟩
  have tallies := waited.tallies rfl (by decide) rfl start (by decide)
  have ends : (v.advanceTo ⟨200000000000⟩).clock.add? (.ofSeconds 300) = some ⟨500000000000⟩ := by
    rw [paused]
    rfl
  obtain ⟨_, u, second⟩ := exists_countLoginAttempt (a := strict) rfl tallies.reliable ends "ann"
  have twice := waited.fail "ann" second
  have now : (u.advanceTo ⟨499700000000⟩).clock = ⟨499700000000⟩ := by
    rw [World.advanceTo, World.clock_eq_of_run? second, paused]
    rfl
  have logins := twice.wait ⟨499700000000⟩
  rw [paused] at logins
  obtain ⟨-, w', locked⟩ := throttles_logins rfl rfl (by decide) (by decide) reliable fresh logins (by decide) "ann"
  rw [now] at locked
  exact ⟨_, w', logins, now, locked⟩

end Accounts

end AccountCache
