import AccountCache.Proofs.Limits.Runs
import AccountCache.Proofs.Moments.AtOnce

namespace AccountCache

open Cache (Stored Cached)

namespace Simulation.World

variable {w v w' : World}

/-- Whether a world with a reliable cache differs from another only in what
is cached and which locks are taken. All that a service does at one moment
leads to such a world if it writes nothing to the database. -/
structure Akin (w w' : World) : Prop where
  reliable : w'.Reliable
  clock : w'.clock = w.clock
  epoch : w'.epoch = w.epoch
  tables : w'.tables = w.tables
  databaseFault : w'.databaseFault = w.databaseFault

structure Twin (w w' : World) : Prop extends w.Akin w' where
  guards : ∀ key, w'.guard? key = w.guard? key

theorem Akin.trans (first : w.Akin v) (rest : v.Akin w') : w.Akin w' :=
  ⟨rest.reliable, rest.clock.trans first.clock, rest.epoch.trans first.epoch, rest.tables.trans first.tables,
    rest.databaseFault.trans first.databaseFault⟩

theorem Twin.trans (first : w.Twin v) (rest : v.Twin w') : w.Twin w' :=
  ⟨first.toAkin.trans rest.toAkin, fun key => (rest.guards key).trans (first.guards key)⟩

theorem Reliable.twin (reliable : w.Reliable) : w.Twin w := ⟨⟨reliable, rfl, rfl, rfl, rfl⟩, fun _ => rfl⟩

theorem Reliable.akin_of_answers (reliable : w.Reliable) {r : Cache.Request} {answer : (Effect.cache r).Answer}
    (answers : w.Answers (.cache r) answer w') : w.Akin w' where
  reliable := reliable.cache answers
  clock := answers.clock_eq.1
  epoch := answers.clock_eq.2
  tables := answers.tables_eq
  databaseFault := by
    cases answers with
    | cache =>
      rw [serveCache]
      cases w.cacheFault r with
      | some e => rfl
      | none => rfl

/-- What the database answers to a request at the present moment. -/
def loaded (w : World) (r : Database.Request) : Except Database.Error r.Result :=
  (w.serveDatabase (w.databaseFault r) r).1

theorem Akin.loaded (akin : w.Akin w') (r : Database.Request) : w'.loaded r = w.loaded r := by
  simp only [World.loaded, serveDatabase, wallClock, akin.databaseFault, akin.tables, akin.clock, akin.epoch]
  cases w.databaseFault r with
  | none | some => rfl

theorem answer?_database (w : World) {r : Database.Request} (read : r.isRead = true) :
    w.answer? (.database r) = some (w.loaded r, w) := by
  have same : (w.serveDatabase (w.databaseFault r) r).2 = w := by
    unfold serveDatabase
    cases w.databaseFault r with
    | some e => rfl
    | none =>
      cases r with
      | findUser | findUserByEmail | findPassword | findSessionByToken | findSession | findGrants => rfl
      | _ => cases read
  exact congrArg some (Prod.ext rfl same)

theorem run?_database (w : World) {r : Database.Request} (read : r.isRead = true) :
    w.run? (Accounts.Operation.database r).run = some ((w.loaded r).mapError .database, w) :=
  run?_ask (w.answer?_database read)

/-- Whether the entries of some keys are gone, and nothing else
has changed. -/
structure Lacks (w : World) (keys : List String) (w' : World) : Prop extends w.Twin w' where
  gone : ∀ key ∈ keys, w'.cached? key = none
  others : ∀ key ∉ keys, ¬Key.IsLock key → w'.cached? key = w.cached? key

/-- Whether the lock of a key has been taken, and nothing else
has changed. -/
structure Locked (w : World) (key : String) (lock : Cache.Lock) (w' : World) : Prop extends w.Akin w' where
  own : lock.cacheKey = key
  held : (w'.guard? key).map (·.value) = some (.ofText lock.token)
  guards : ∀ other, other ≠ key → w'.guard? other = w.guard? other
  entries : ∀ other, ¬Key.IsLock other → w'.cached? other = w.cached? other

end Simulation.World

open Simulation (World)

namespace Accounts

/-- Whether a cache is switched on and works, and no clock shows anything
out of the ordinary. -/
structure Ready (a : Accounts) (w : World) : Prop where
  enabled : a.cache.policy.disabled = false
  moderate : a.Moderate
  reliable : w.Reliable
  ample : w.clock.Ample
  recent : w.wallClock.IsRecent

namespace Ready

variable {a : Accounts} {w v w' : World} {d : Datum} {α : Type}

theorem of_akin (ready : Ready a w) (akin : w.Akin w') : Ready a w' where
  enabled := ready.enabled
  moderate := ready.moderate
  reliable := akin.reliable
  ample := akin.clock ▸ ready.ample
  recent := by
    rw [World.wallClock, akin.clock, akin.epoch]
    exact ready.recent

/-- What the service allows is answered at once. -/
theorem answer? (ready : Ready a w) {r : Cache.Request} (allowed : a.Allows (.cache r)) :
    ∃ answer w', w.answer? (.cache r) = some (answer, w') ∧ w.Answers (.cache r) answer w' ∧ w.Akin w' := by
  obtain ⟨answer, answered⟩ := ready.reliable.exists_answer_of_fits ready.ample allowed.1
  have answers := World.Answers.cache answered
  exact ⟨answer, _, answers.answer?_eq, answers, ready.reliable.akin_of_answers answers⟩

/-- A request that names only keys of data takes no lock and
gives none back. -/
theorem answer?_of_data (ready : Ready a w) {r : Cache.Request} (allowed : a.Allows (.cache r))
    (plain : ∀ key ∈ r.keys, ¬Key.IsLock key) :
    ∃ answer w', w.answer? (.cache r) = some (answer, w') ∧ w.Answers (.cache r) answer w' ∧ w.Twin w' := by
  obtain ⟨answer, w', answered, answers, akin⟩ := ready.answer? allowed
  refine ⟨answer, w', answered, answers, akin, fun key => ready.reliable.guard?_eq answers fun named => ?_⟩
  exact plain _ named (Key.isLock_lock key)

theorem run?_checkCache (ready : Ready a w) (d : Datum) : ∃ w',
    w.run? (Cache.Manager.checkCache d.key) = some ((w.cached? d.key).map fun e => .ofBytes e.value, w') ∧
      w.Twin w' ∧ ∀ key, w'.cached? key = w.cached? key := by
  obtain ⟨answer, w', answered, answers, twin⟩ := ready.answer?_of_data (r := .get d.key) (.of_lifetimes_eq rfl)
    (List.forall_mem_singleton.2 d.key_not_isLock)
  obtain ⟨_, rfl, same, _⟩ := ready.reliable.get answers
  refine ⟨w', (World.run?_ask answered).trans ?_, twin, same⟩
  cases w.cached? d.key with
  | none | some => rfl

/-- Who finds nothing gets the lock, if nobody holds it. Nobody comes
between, since the action runs on its own. -/
theorem run?_getOrLock_of_missing (ready : Ready a w) (missing : w.cached? d.key = none)
    (free : w.guard? d.key = none) : ∃ lock w', w.run? (a.cache.getOrLock d.key) = some (.ok (.owner lock), w') ∧
      w.Locked d.key lock w' := by
  obtain ⟨v, looked, twin, same⟩ := ready.run?_checkCache d
  have there := ready.of_akin twin.toAkin
  obtain ⟨answer, w', answered, answers, akin⟩ :=
    there.answer? (ready.moderate.acquire d.key a.cache.policy.lockTries)
  have lasting := (Cache.Policy.problem?_eq_none a.cache.usable).2.2
  obtain ⟨_, entries, ⟨guard, _, taken, _⟩ | ⟨lock, guard, rfl, own, _, held, token⟩⟩ :=
    there.reliable.acquire answers lasting
  · rw [twin.guards, free] at taken
    cases taken
  · refine ⟨lock, w', ?_, twin.toAkin.trans akin, own, ?_, fun key other => ?_, fun key plain => ?_⟩
    · rw [Cache.Manager.getOrLock, if_neg (Bool.eq_false_iff.1 ready.enabled), missing] at *
      refine (World.run?_then looked).trans ?_
      exact World.run?_ask answered
    · rw [held, Option.map_some, token]
    · have away : Key.lock key ∉ Cache.Request.keys (.acquire d.key a.cache.policy.lockDuration
          a.cache.policy.lockTries) := fun named => other (Key.lock_injective (List.mem_singleton.1 named))
      rw [there.reliable.guard?_eq answers away, twin.guards]
    · have other : key ≠ Key.lock d.key := fun same => plain (same ▸ Key.isLock_lock d.key)
      rw [entries key other, same]

theorem run?_getOrLock_of_cached (ready : Ready a w) {e : Stored} (there : w.cached? d.key = some e) : ∃ w',
    w.run? (a.cache.getOrLock d.key) = some (.ok (.hit (.ofBytes e.value)), w') ∧ w.Twin w' ∧
      ∀ key, w'.cached? key = w.cached? key := by
  obtain ⟨w', looked, twin, same⟩ := ready.run?_checkCache d
  refine ⟨w', ?_, twin, same⟩
  rw [there] at looked
  rw [Cache.Manager.getOrLock, if_neg (Bool.eq_false_iff.1 ready.enabled)]
  exact World.run?_then looked

/-- Who gives a lock back that is held leaves the locks as they were before
it was taken. -/
theorem run?_release (ready : Ready a w) {lock : Cache.Lock} (own : lock.cacheKey = d.key)
    (held : (w.guard? d.key).map (·.value) = some (.ofText lock.token)) : ∃ w',
    w.run? (Cache.Manager.release lock) = some ((), w') ∧ w.Akin w' ∧ w'.guard? d.key = none ∧
      (∀ key, key ≠ d.key → w'.guard? key = w.guard? key) ∧
      ∀ key, ¬Key.IsLock key → w'.cached? key = w.cached? key := by
  obtain ⟨answer, w', answered, answers, akin⟩ := ready.answer? (r := .release lock) (.of_lifetimes_eq rfl)
  obtain ⟨_, entries, ⟨gone, rfl⟩, free⟩ := ready.reliable.release answers
  rw [own] at free
  refine ⟨w', (World.run?_ask answered).trans ?_, akin, free held, fun key other => ?_, fun key plain => ?_⟩
  · cases gone with
    | true | false => rfl
  · refine ready.reliable.guard?_eq answers fun named => other ?_
    rw [← own]
    exact Key.lock_injective (List.mem_singleton.1 named)
  · exact entries key fun same => plain (same ▸ Key.isLock_lock lock.cacheKey)

theorem run?_invalidate (ready : Ready a w) (data : List Datum) : ∃ w',
    w.run? (a.invalidate (data.map Datum.key)) = some ((), w') ∧ w.Lacks (data.map Datum.key) w' := by
  rw [invalidate, Cache.Manager.delete, ready.enabled]
  cases data with
  | nil => exact ⟨w, rfl, ready.reliable.twin, List.forall_mem_nil _, fun _ _ _ => rfl⟩
  | cons d rest =>
    have plain : ∀ key ∈ (d :: rest).map Datum.key, ¬Key.IsLock key := List.forall_mem_map.2 fun x _ => x.key_not_isLock
    obtain ⟨answer, w', answered, answers, twin⟩ :=
      ready.answer?_of_data (r := .delete ((d :: rest).map Datum.key)) (.of_lifetimes_eq rfl) plain
    have entries := ready.reliable.delete answers
    refine ⟨w', ?_, twin, fun key member => (entries key).trans (if_pos member),
      fun key other _ => (entries key).trans (if_neg other)⟩
    cases answer with
    | error e => cases ready.reliable.isIncrement_of_error answers
    | ok => exact World.run?_ask answered

theorem run?_store (ready : Ready a w) (item : Cache.Item) (own : item.key = d.key)
    (allowed : a.Allows (.cache (.set (a.cache.entry item)))) : ∃ w',
    w.run? (a.cache.store item) = some (.ok (), w') ∧ w.Twin w' ∧
      (w'.cached? d.key).map (·.value) = some item.value ∧ ∀ key, key ≠ d.key → w'.cached? key = w.cached? key := by
  have key : (a.cache.entry item).key = d.key := own
  obtain ⟨answer, w', answered, answers, twin⟩ := ready.answer?_of_data allowed
    (List.forall_mem_singleton.2 (key.symm ▸ d.key_not_isLock))
  obtain ⟨_, rfl, others, there, _⟩ := ready.reliable.set answers (a.cache.seconds_ne_zero item)
  rw [key] at others there
  refine ⟨w', ?_, twin, by rw [there]; rfl, fun other differ => others other differ.symm⟩
  rw [Cache.Manager.store, if_neg (Bool.eq_false_iff.1 ready.enabled)]
  exact World.run?_ask answered

end Ready

end Accounts

end AccountCache
