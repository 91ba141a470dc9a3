import AccountCache.Proofs.Coherence.Readers
import AccountCache.Proofs.ReadBack.Rows
import AccountCache.Proofs.Sequential.Runs

namespace AccountCache

open Database (Tables)
open Simulation (Backend World Circumstances Ensures)

namespace Cache

theorem Request.Bounded.ends {r : Request} {now : Instant} (bounded : r.Bounded) (roomy : now.Roomy) :
    ∀ d ∈ r.lifetimes, ∃ deadline, now.add? d = some deadline := by
  have short : ∀ d ∈ r.lifetimes, d ≤ horizon := by
    cases r with
    | get | delete | increment | ttl | release | isHeld => exact fun _ => nofun
    | set e => exact List.forall_mem_singleton.2 (ofSeconds_le_horizon bounded)
    | setMany entries => exact List.forall_mem_map.2 fun e member => ofSeconds_le_horizon (bounded e member)
    | expire key ttl =>
      have bound : ttl ≤ horizon := bounded
      refine List.forall_mem_singleton.2 (ofSeconds_le_horizon ?_)
      simp only [horizon, Duration.le_def, Duration.ofSeconds, Duration.seconds, Duration.nanos_ofNanos,
        Duration.maxNanos] at bound ⊢
      omega
    | acquire cacheKey expiry tries => exact List.forall_mem_singleton.2 bounded
  exact fun d member => ⟨_, Instant.add?_of_roomy roomy (short d member)⟩

/-- Whether a policy names no lifetime longer than the horizon. -/
structure Policy.Modest (p : Policy) : Prop where
  defaultTtl : p.defaultTtl.seconds ≤ 9000000000000000
  nilTtl : p.nilTtl.seconds ≤ 9000000000000000
  lockDuration : p.lockDuration ≤ horizon

end Cache

namespace Simulation.World

variable {w w' : World}

theorem Answers.clock_eq {e : Effect} {answer : e.Answer} (answers : w.Answers e answer w') :
    w'.clock = w.clock ∧ w'.epoch = w.epoch := by
  cases answers with
  | @cache r _ _ =>
    rw [serveCache]
    cases w.cacheFault r with
    | some e => exact ⟨rfl, rfl⟩
    | none => exact ⟨rfl, rfl⟩
  | database r =>
    cases w.databaseFault r with
    | some e => exact ⟨rfl, rfl⟩
    | none => exact ⟨rfl, rfl⟩
  | _ => exact ⟨rfl, rfl⟩

theorem Reliable.exists_answer (reliable : w.Reliable) {r : Cache.Request}
    (ends : ∀ d ∈ r.lifetimes, ∃ deadline, w.clock.add? d = some deadline) :
    ∃ answer w', w.Answers (.cache r) answer w' := by
  obtain ⟨⟨values, locks, memory⟩, faultless⟩ := reliable
  have answered : ∃ answer, (w.serveCache r).1 = some answer := by
    rw [serveCache, faultless r, memory]
    cases locks with
    | none => exact Cache.MemoryStore.exists_serve ends _
    | some locks =>
      simp only [Backend.serve]
      split
      · exact Cache.MemoryStore.exists_serve ends _
      · exact Cache.MemoryStore.exists_serve ends _
  obtain ⟨answer, answered⟩ := answered
  exact ⟨answer, _, .cache answered⟩

theorem guard?_of_advanceTo {later : Instant} {key : String} {guard : Cache.Stored}
    (live : (w.advanceTo later).guard? key = some guard) : w.guard? key = some guard := by
  obtain ⟨locks, memory, live⟩ := Option.bind_eq_some_iff.1 live
  refine Option.bind_eq_some_iff.2 ⟨locks, memory, ?_⟩
  have order : w.clock ≤ (w.advanceTo later).clock := Instant.le_max_left ..
  rw [Cache.MemoryStore.live?_of_le locks order] at live
  exact (Option.filter_eq_some_iff.1 live).1

theorem Reliable.guard?_eq (reliable : w.Reliable) {r : Cache.Request} {answer : (Effect.cache r).Answer}
    (answers : w.Answers (.cache r) answer w') {key : String} (away : Key.lock key ∉ r.keys) :
    w'.guard? key = w.guard? key := by
  cases kind : r.isAboutLocks with
  | false => exact (reliable.answers_values answers kind).2.1 key away
  | true =>
    obtain ⟨_, _, locks, view, _, view'⟩ := reliable.answers_locks answers kind
    rw [view', view, Cache.MemoryStore.live?_serve _ away]

theorem Reliable.cached?_eq (reliable : w.Reliable) {r : Cache.Request} {answer : (Effect.cache r).Answer}
    (answers : w.Answers (.cache r) answer w') {key : String} (away : key ∉ r.keys) :
    w'.cached? key = w.cached? key := by
  cases kind : r.isAboutLocks with
  | true => exact (reliable.answers_locks answers kind).2.1 key away
  | false =>
    obtain ⟨_, _, values, view, _, view'⟩ := reliable.answers_values answers kind
    rw [view', view, Cache.MemoryStore.live?_serve _ away]

/-- A lock that is given back may go, and no other lock comes or goes. -/
theorem Reliable.guard?_of_release (reliable : w.Reliable) {lock : Cache.Lock}
    {answer : (Effect.cache (.release lock)).Answer} (answers : w.Answers (.cache (.release lock)) answer w')
    {key : String} {guard : Cache.Stored} (live : w'.guard? key = some guard) :
    w.guard? key = some guard ∧ ¬(lock.cacheKey = key ∧ guard.value = .ofText lock.token) := by
  by_cases same : lock.cacheKey = key
  · subst same
    obtain ⟨_, _, _, gone⟩ := reliable.release answers
    obtain ⟨_, _, locks, view, _, view'⟩ := reliable.answers_locks answers rfl
    have before : w.guard? lock.cacheKey = some guard := by
      rw [view'] at live
      rw [view]
      simp only [Cache.MemoryStore.serve, Cache.MemoryStore.release_eq] at live
      split at live
      · rw [Cache.MemoryStore.live?_drop] at live
        split at live
        · cases live
        · exact live
      · exact live
    refine ⟨before, fun own => ?_⟩
    rw [gone (by rw [before, Option.map_some, own.2])] at live
    cases live
  · have away : Key.lock key ∉ Cache.Request.keys (.release lock) := by
      intro named
      exact same (Key.lock_injective (List.mem_singleton.1 named)).symm
    rw [reliable.guard?_eq answers away] at live
    exact ⟨live, fun own => same own.1⟩

end Simulation.World

namespace Accounts

/-- How things stand between two requests: the database holds some tables,
what is cached is right, and whatever lock is taken is one of those that are
held. A disabled cache is empty. What counts as right is a parameter, since
users and sessions differ in it. -/
structure Calm (a : Accounts) (c : Circumstances) (right : Datum → Bytes → Prop) (held : List Cache.Lock)
    (t : Tables) (w : World) : Prop where
  reliable : w.Reliable
  tables : w.tables = t
  keyed : t.Keyed
  unique : c.unique → t.Unique
  modest : c.bounded → a.cache.policy.Modest
  roomy : c.bounded → w.clock.Roomy
  entries : ∀ (d : Datum) e, w.cached? d.key = some e → a.cache.policy.disabled = false ∧ right d e.value
  guards : ∀ key guard, w.guard? key = some guard →
    ∃ lock ∈ held, lock.cacheKey = key ∧ guard.value = .ofText lock.token

namespace Calm

variable {a : Accounts} {c : Circumstances} {right right' : Datum → Bytes → Prop} {held : List Cache.Lock}
  {t : Tables} {w v : World} {d : Datum} {bytes : Bytes} {α : Type}

/-- All is calm before anything has been cached. -/
theorem start (unbounded : ¬c.bounded) (reliable : w.Reliable) (uncached : ∀ key, w.cached? key = none)
    (unlocked : ∀ key, w.guard? key = none) (keyed : w.tables.Keyed) (unique : c.unique → w.tables.Unique) :
    Calm a c right [] w.tables w where
  reliable := reliable
  tables := rfl
  keyed := keyed
  unique := unique
  modest bounded := absurd bounded unbounded
  roomy bounded := absurd bounded unbounded
  entries d e live := by
    rw [uncached] at live
    cases live
  guards key guard live := by
    rw [unlocked] at live
    cases live

theorem mono (calm : Calm a c right held t w) (weaker : ∀ d bytes, right d bytes → right' d bytes) :
    Calm a c right' held t w :=
  { calm with entries := fun d e live => (calm.entries d e live).imp_right (weaker d e.value) }

theorem advanceTo (calm : Calm a c right held t w) {later : Instant} (roomy : c.bounded → later.Roomy) :
    Calm a c right held t (w.advanceTo later) where
  reliable := calm.reliable.advanceTo later
  tables := calm.tables
  keyed := calm.keyed
  unique := calm.unique
  modest := calm.modest
  roomy bounded := Instant.max_of (calm.roomy bounded) (roomy bounded)
  entries d e live := calm.entries d e (World.cached?_of_advanceTo live)
  guards key guard live := calm.guards key guard (World.guard?_of_advanceTo live)

theorem quiet (calm : Calm a c right held t w) {e : Effect} {answer : e.Answer} (quiet : e.IsQuiet)
    (next : w.Next c e answer v) : Calm a c right held t v := by
  obtain ⟨later, roomy, serves⟩ := next
  cases serves with
  | database => cases quiet
  | wallClock now => exact calm.advanceTo roomy
  | other _ answers =>
    rw [answers.eq_of_isQuiet quiet]
    exact calm.advanceTo roomy

theorem warn (calm : Calm a c right held t w) (message : String) :
    Ensures c (Action.warn message) w fun _ w' => Calm a c right held t w' :=
  ⟨fun bounded => ⟨(), _, w.clock, fun _ => calm.roomy bounded, .other (fun _ => nofun) (.warn message)⟩,
    fun _ _ => calm.quiet trivial⟩

theorem wallClock (calm : Calm a c right held t w) :
    Ensures c (Action.perform .wallClock) w fun _ w' => Calm a c right held t w' :=
  ⟨fun bounded => ⟨.epoch, _, w.clock, fun _ => calm.roomy bounded, .wallClock .epoch⟩,
    fun _ _ => calm.quiet trivial⟩

/-- A request to the cache is answered by the cache, after some time. -/
theorem request (calm : Calm a c right held t w) {r : Cache.Request}
    {post : (Effect.cache r).Answer → World → Prop} (bounded : c.bounded → r.Bounded)
    (rest : ∀ v answer w', Calm a c right held t v → v.Answers (.cache r) answer w' → post answer w') :
    Ensures c (Action.cache r) w post := by
  refine ⟨fun limited => ?_, ?_⟩
  · have now := calm.advanceTo calm.roomy
    obtain ⟨answer, w', answers⟩ := now.reliable.exists_answer ((bounded limited).ends (now.roomy limited))
    exact ⟨answer, w', w.clock, calm.roomy, .other (fun _ => nofun) answers⟩
  · rintro answer w' ⟨later, roomy, serves⟩
    cases serves with
    | other _ answers => exact rest _ _ _ (calm.advanceTo roomy) answers

theorem answered (calm : Calm a c right held t v) {r : Cache.Request} {answer : (Effect.cache r).Answer}
    (answers : v.Answers (.cache r) answer w) {held' : List Cache.Lock}
    (entries : ∀ (d : Datum) e, w.cached? d.key = some e → a.cache.policy.disabled = false ∧ right' d e.value)
    (guards : ∀ key guard, w.guard? key = some guard →
      ∃ lock ∈ held', lock.cacheKey = key ∧ guard.value = .ofText lock.token) : Calm a c right' held' t w where
  reliable := calm.reliable.cache answers
  tables := answers.tables_eq.trans calm.tables
  keyed := calm.keyed
  unique := calm.unique
  modest := calm.modest
  roomy := answers.clock_eq.1 ▸ calm.roomy
  entries := entries
  guards := guards

/-- A request that names only keys of data leaves the locks alone. -/
theorem guards_of_keys (calm : Calm a c right held t v) {r : Cache.Request} {answer : (Effect.cache r).Answer}
    (answers : v.Answers (.cache r) answer w) (plain : ∀ key, Key.lock key ∉ r.keys) (key : String)
    (guard : Cache.Stored) (live : w.guard? key = some guard) :
    ∃ lock ∈ held, lock.cacheKey = key ∧ guard.value = .ofText lock.token :=
  calm.guards key guard ((calm.reliable.guard?_eq answers (plain key)).symm.trans live)

theorem aside (calm : Calm a c right held t w) {r : Cache.Request} (bounded : c.bounded → r.Bounded)
    (noDatum : ∀ d : Datum, d.key ∉ r.keys) (noLock : ∀ key, Key.lock key ∉ r.keys) :
    Ensures c (Action.cache r) w fun _ w' => Calm a c right held t w' := by
  refine calm.request bounded fun v answer w' calm answers => ?_
  refine calm.answered answers (fun d e live => ?_) (calm.guards_of_keys answers noLock)
  exact calm.entries d e ((calm.reliable.cached?_eq answers (noDatum d)).symm.trans live)

theorem get (calm : Calm a c right held t w) (d : Datum) :
    Ensures c (Action.cache (.get d.key)) w fun answer w' => Calm a c right held t w' ∧
      ∃ found, answer = .ok found ∧ ∀ bytes, found = some bytes → right d bytes := by
  refine calm.request (fun _ => trivial) fun v answer w' calm answers => ?_
  obtain ⟨_, rfl, entries, _⟩ := calm.reliable.get answers
  refine ⟨calm.answered answers ?_ (calm.guards_of_keys answers fun key named => ?_), _, rfl, ?_⟩
  · intro d e live
    exact calm.entries d e ((entries d.key).symm.trans live)
  · exact d.key_ne_lock key (List.mem_singleton.1 named).symm
  · intro bytes found
    obtain ⟨e, live, rfl⟩ := Option.map_eq_some_iff.1 found
    exact (calm.entries d e live).2

theorem acquire (calm : Calm a c right held t w) (free : ∀ lock ∈ held, lock.cacheKey ≠ d.key) (tries : Nat) :
    Ensures c (Action.cache (.acquire d.key a.cache.policy.lockDuration tries)) w fun answer w' =>
      ∃ lock, answer = .ok (some lock) ∧ lock.cacheKey = d.key ∧ Calm a c right (lock :: held) t w' := by
  refine calm.request (fun bounded => (calm.modest bounded).lockDuration) fun v answer w' calm answers => ?_
  have lasting := (Cache.Policy.problem?_eq_none a.cache.usable).2.2
  obtain ⟨_, entries, ⟨guard, _, taken, _⟩ | ⟨lock, guard, granted, own, _, taken, token⟩⟩ :=
    calm.reliable.acquire answers lasting
  · -- A lock that is taken would be one of the operation's own.
    obtain ⟨lock, member, same, _⟩ := calm.guards d.key guard taken
    exact absurd same (free lock member)
  · refine ⟨lock, granted, own, calm.answered answers ?_ ?_⟩
    · intro d' e live
      exact calm.entries d' e ((entries d'.key (d'.key_ne_lock d.key)).symm.trans live)
    · intro key guard' live
      by_cases same : key = d.key
      · subst same
        rw [taken] at live
        obtain rfl := Option.some.inj live
        exact ⟨lock, List.mem_cons_self .., own, token⟩
      · have away : Key.lock key ∉ Cache.Request.keys (.acquire d.key a.cache.policy.lockDuration tries) :=
          fun named => same (Key.lock_injective (List.mem_singleton.1 named))
        rw [calm.reliable.guard?_eq answers away] at live
        obtain ⟨other, member, same, token⟩ := calm.guards key guard' live
        exact ⟨other, List.mem_cons_of_mem _ member, same, token⟩

theorem release {lock : Cache.Lock} (calm : Calm a c right (lock :: held) t w) :
    Ensures c (Action.cache (.release lock)) w fun answer w' =>
      (∃ gone, answer = .ok gone) ∧ Calm a c right held t w' := by
  refine calm.request (fun _ => trivial) fun v answer w' calm answers => ?_
  obtain ⟨_, entries, done, _⟩ := calm.reliable.release answers
  refine ⟨done, calm.answered answers ?_ ?_⟩
  · intro d e live
    exact calm.entries d e ((entries d.key (d.key_ne_lock lock.cacheKey)).symm.trans live)
  · intro key guard live
    obtain ⟨before, other⟩ := calm.reliable.guard?_of_release answers live
    obtain ⟨lock', member, same, token⟩ := calm.guards key guard before
    rcases List.mem_cons.1 member with rfl | member
    · exact absurd ⟨same, token⟩ other
    · exact ⟨lock', member, same, token⟩

theorem set (calm : Calm a c right held t w) {e : Cache.Entry} (enabled : a.cache.policy.disabled = false)
    (own : e.key = d.key) (correct : right d e.value) (positive : e.seconds ≠ 0)
    (bounded : c.bounded → e.seconds ≤ 9000000000000000) :
    Ensures c (Action.cache (.set e)) w fun answer w' => answer = .ok () ∧ Calm a c right held t w' := by
  refine calm.request bounded fun v answer w' calm answers => ?_
  obtain ⟨_, done, others, written, _⟩ := calm.reliable.set answers positive
  refine ⟨done, calm.answered answers ?_ (calm.guards_of_keys answers fun key named => ?_)⟩
  · intro d' e' live
    by_cases same : d = d'
    · subst same
      rw [← own, written] at live
      obtain rfl := Option.some.inj live
      exact ⟨enabled, correct⟩
    · have differ : e.key ≠ d'.key := fun eq => same (Datum.key_injective (own.symm.trans eq))
      exact calm.entries d' e' ((others d'.key differ).symm.trans live)
  · exact d.key_ne_lock key (own.symm.trans (List.mem_singleton.1 named).symm)

/-- What is written over need not have been right. This is how a wrong
copy is mended. -/
theorem setMany (calm : Calm a c right held t w) {entries : List Cache.Entry}
    (bounded : c.bounded → ∀ e ∈ entries, e.seconds ≤ 9000000000000000) (enabled : a.cache.policy.disabled = false)
    (told : ∀ e ∈ entries, ∃ d : Datum, e.key = d.key ∧ right' d e.value)
    (covers : ∀ d bytes, right d bytes → (∃ e ∈ entries, e.key = d.key) ∨ right' d bytes) :
    Ensures c (Action.cache (.setMany entries)) w fun _ w' => Calm a c right' held t w' := by
  refine calm.request bounded fun v answer w' calm answers => ?_
  refine calm.answered answers ?_ (calm.guards_of_keys answers fun key named => ?_)
  · intro d e live
    rcases calm.reliable.setMany answers live with ⟨before, others⟩ | ⟨x, member, same, rfl⟩
    · obtain ⟨enabled, correct⟩ := calm.entries d e before
      refine ⟨enabled, (covers d e.value correct).resolve_left ?_⟩
      rintro ⟨x, member, same⟩
      exact others x member same
    · obtain ⟨d', own, correct⟩ := told x member
      obtain rfl := Datum.key_injective (own.symm.trans same)
      exact ⟨enabled, correct⟩
  · obtain ⟨x, member, same⟩ := List.mem_map.1 named
    obtain ⟨d, own, _⟩ := told x member
    exact d.key_ne_lock key (own.symm.trans same)

theorem delete (calm : Calm a c right held t w) {affected : List Datum}
    (covers : ∀ d bytes, right d bytes → d ∈ affected ∨ right' d bytes) :
    Ensures c (Action.cache (.delete (affected.map Datum.key))) w fun answer w' =>
      answer = .ok () ∧ Calm a c right' held t w' := by
  refine calm.request (fun _ => trivial) fun v answer w' calm answers => ?_
  have left := calm.reliable.delete answers
  refine ⟨?_, calm.answered answers ?_ (calm.guards_of_keys answers fun key named => ?_)⟩
  · cases answer with
    | ok => rfl
    | error e => cases calm.reliable.isIncrement_of_error answers
  · intro d e live
    rw [left] at live
    split at live
    · cases live
    · next kept =>
      obtain ⟨enabled, correct⟩ := calm.entries d e live
      refine ⟨enabled, (covers d e.value correct).resolve_left fun member => ?_⟩
      exact kept (List.mem_map_of_mem member)
  · obtain ⟨d, _, same⟩ := List.mem_map.1 named
    exact d.key_ne_lock key same

theorem checkCache (calm : Calm a c right held t w) (d : Datum) :
    Ensures c (Cache.Manager.checkCache d.key) w fun found w' => Calm a c right held t w' ∧
      ∀ cached, found = some cached → ∃ bytes, right d bytes ∧ cached = .ofBytes bytes := by
  refine (calm.get d).bind ?_
  rintro _ w' ⟨calm, found, rfl, told⟩
  refine ⟨calm, fun cached same => ?_⟩
  obtain ⟨bytes, rfl, rfl⟩ := Option.map_eq_some_iff.1 same
  exact ⟨bytes, told bytes rfl, rfl⟩

/-- Without the caller nobody holds a lock, so a caller who finds nothing
gets the lock. -/
theorem getOrLock (calm : Calm a c right held t w) (free : ∀ lock ∈ held, lock.cacheKey ≠ d.key) :
    Ensures c (a.cache.getOrLock d.key) w fun outcome w' =>
      (∃ bytes, outcome = .ok (.hit (.ofBytes bytes)) ∧ right d bytes ∧ Calm a c right held t w') ∨
      (∃ lock, outcome = .ok (.owner lock) ∧ lock.cacheKey = d.key ∧ Calm a c right (lock :: held) t w') ∨
      (outcome = .ok .bypass ∧ Calm a c right held t w') := by
  rw [Cache.Manager.getOrLock]
  split
  · exact .inr (.inr ⟨rfl, calm⟩)
  · refine (calm.checkCache d).bind ?_
    rintro found w' ⟨calm, told⟩
    cases found with
    | some cached =>
      obtain ⟨bytes, correct, rfl⟩ := told cached rfl
      exact .inl ⟨bytes, rfl, correct, calm⟩
    | none =>
      rw [Cache.Manager.tryLock]
      refine ((calm.acquire free a.cache.policy.lockTries).bind ?_).bind fun _ _ => id
      rintro _ w'' ⟨lock, rfl, own, calm⟩
      exact .inr (.inl ⟨lock, rfl, own, calm⟩)

theorem releaseLoad {lock : Option Cache.Lock} (calm : Calm a c right (lock.toList ++ held) t w) :
    Ensures c (Accounts.releaseLoad lock) w fun _ w' => Calm a c right held t w' := by
  cases lock with
  | none => exact calm
  | some lock =>
    have given : Ensures c (Action.cache (.release lock)) w fun answer w' =>
        (∃ gone, answer = .ok gone) ∧ Calm a c right held t w' := calm.release
    refine given.bind ?_
    rintro _ w' ⟨⟨gone, rfl⟩, calm⟩
    cases gone with
    | true => exact calm
    | false => exact calm.warn _

theorem store (calm : Calm a c right held t w) {item : Cache.Item} (own : item.key = d.key)
    (correct : right d item.value) (bounded : c.bounded → a.cache.seconds item ≤ 9000000000000000) :
    Ensures c (a.cache.store item) w fun outcome w' => outcome = .ok () ∧ Calm a c right held t w' := by
  rw [Cache.Manager.store]
  split
  · exact ⟨rfl, calm⟩
  · next enabled => exact calm.set (Bool.eq_false_iff.2 enabled) own correct (a.cache.seconds_ne_zero item) bounded

theorem invalidate (calm : Calm a c right held t w) (affected : List Datum)
    (covers : ∀ d bytes, right d bytes → d ∈ affected ∨ right' d bytes) :
    Ensures c (a.invalidate (affected.map Datum.key)) w fun _ w' => Calm a c right' held t w' := by
  rw [Accounts.invalidate, Cache.Manager.delete]
  split
  · next idle =>
    -- Whatever is cached is cached in a cache that is used, so there are no keys to drop.
    have kept : ∀ (d : Datum) e, w.cached? d.key = some e → a.cache.policy.disabled = false ∧ right' d e.value := by
      intro d e live
      obtain ⟨enabled, correct⟩ := calm.entries d e live
      refine ⟨enabled, (covers d e.value correct).resolve_left fun member => ?_⟩
      rw [enabled, Bool.false_or, List.isEmpty_iff, List.map_eq_nil_iff] at idle
      rw [idle] at member
      cases member
    exact { calm with entries := kept }
  · refine (calm.delete covers).bind ?_
    rintro _ w' ⟨rfl, calm⟩
    exact calm

theorem storeMany (calm : Calm a c right held t w) {items : List Cache.Item}
    (bounded : c.bounded → ∀ item ∈ items, a.cache.seconds item ≤ 9000000000000000)
    (told : ∀ item ∈ items, ∃ d : Datum, item.key = d.key ∧ right' d item.value)
    (covers : ∀ d bytes, right d bytes → (∃ item ∈ items, item.key = d.key) ∨ right' d bytes) :
    Ensures c (a.cacheItems items) w fun _ w' => Calm a c right' held t w' := by
  rw [cacheItems, Cache.Manager.storeMany]
  split
  · next idle =>
    have kept : ∀ (d : Datum) e, w.cached? d.key = some e → a.cache.policy.disabled = false ∧ right' d e.value := by
      intro d e live
      obtain ⟨enabled, correct⟩ := calm.entries d e live
      refine ⟨enabled, (covers d e.value correct).resolve_left ?_⟩
      rintro ⟨item, member, _⟩
      rw [enabled, Bool.false_or, List.isEmpty_iff] at idle
      rw [idle] at member
      cases member
    exact { calm with entries := kept }
  · next busy =>
    have enabled : a.cache.policy.disabled = false := by
      cases disabled : a.cache.policy.disabled with
      | false => rfl
      | true => exact absurd (by rw [disabled, Bool.true_or]) busy
    have stored : Ensures c (Action.cache (.setMany (items.map a.cache.entry))) w fun _ w' =>
        Calm a c right' held t w' := by
      refine calm.setMany (fun limited e member => ?_) enabled (fun e member => ?_) fun d bytes correct => ?_
      · obtain ⟨item, listed, rfl⟩ := List.mem_map.1 member
        exact bounded limited item listed
      · obtain ⟨item, listed, rfl⟩ := List.mem_map.1 member
        exact told item listed
      · refine (covers d bytes correct).imp_left ?_
        rintro ⟨item, listed, same⟩
        exact ⟨_, List.mem_map_of_mem listed, same⟩
    refine stored.bind fun outcome w' calm => ?_
    cases outcome with
    | ok => exact calm
    | error e => exact calm.warn _

section

variable [Storable α]

theorem fill (calm : Calm a c right held t w) {value : α}
    (told : ∀ bytes, Storable.encode? value = some bytes → right d bytes) :
    Ensures c (a.fill d.key value) w fun _ w' => Calm a c right held t w' := by
  rw [Accounts.fill]
  split
  · exact calm.warn _
  · next bytes encoded =>
    have usual : a.cache.seconds (.new d.key bytes) = a.cache.policy.defaultTtl.seconds := by
      have none : (Cache.Item.new d.key bytes).ttlSeconds = 0 := Nat.zero_div _
      rw [Cache.Manager.seconds, if_pos none]
    have stored : Ensures c (a.cache.store (.new d.key bytes)) w fun outcome w' =>
        outcome = .ok () ∧ Calm a c right held t w' :=
      calm.store (d := d) rfl (told bytes encoded) fun bounded => usual ▸ (calm.modest bounded).defaultTtl
    refine stored.bind ?_
    rintro _ w' ⟨rfl, calm⟩
    exact calm

theorem fillAbsent (calm : Calm a c right held t w) (told : right d Cache.nilBytes) :
    Ensures c (a.fillAbsent d.key) w fun _ w' => Calm a c right held t w' := by
  have stored : Ensures c (a.cache.storeAbsent d.key) w fun outcome w' =>
      outcome = .ok () ∧ Calm a c right held t w' := by
    refine calm.store (d := d) rfl told fun bounded => ?_
    rw [Cache.Manager.seconds]
    split
    · exact (calm.modest bounded).defaultTtl
    · exact (calm.modest bounded).nilTtl
  refine stored.bind ?_
  rintro _ w' ⟨rfl, calm⟩
  exact calm

theorem fillFound (calm : Calm a c right held t w) {found : Option α}
    (told : ∀ bytes, recorded? found = some bytes → right d bytes) :
    Ensures c (a.fillFound d.key found).run w fun outcome w' => outcome = .ok found ∧ Calm a c right held t w' := by
  cases found with
  | none => exact (calm.fillAbsent (told _ rfl)).liftThen fun _ w' calm => ⟨rfl, calm⟩
  | some value => exact (calm.fill told).liftThen fun _ w' calm => ⟨rfl, calm⟩

/-- What was recorded of a row, or of there being none, is read back. -/
theorem decode_ofBytes (key : String) {found : Option α} (null : (Storable.ofJson? .null : Option α) = none)
    (faithful : ∀ value, found = some value → Storable.Faithful value) (recorded : recorded? found = some bytes) :
    a.decode key (.ofBytes bytes) = (pure found : Operation (Option α)) := by
  cases found with
  | none =>
    obtain rfl := Option.some.inj recorded
    rfl
  | some value =>
    have read := (faithful value rfl).decode?_of_encode? recorded
    have row := (faithful value rfl).ne_nilBytes null recorded
    rw [Cache.Cached.ofBytes, if_neg row, Accounts.decode]
    simp only [read]

variable {ends : Except Error (Option α) → Prop}

theorem lookup (calm : Calm a c right held t w) (free : ∀ lock ∈ held, lock.cacheKey ≠ d.key)
    (hits : ∀ bytes, right d bytes → ∃ found, ends (.ok found) ∧
      a.decode d.key (.ofBytes bytes) = (pure found : Operation (Option α))) :
    Ensures c (a.lookup d.key : Operation (Lookup α)).run w fun outcome w' =>
      (∃ value, outcome = .ok (.cached value) ∧ ends (.ok value) ∧ Calm a c right held t w') ∨
      ∃ lock, outcome = .ok (.load lock) ∧ (∀ l, lock = some l → l.cacheKey = d.key) ∧
        Calm a c right (lock.toList ++ held) t w' := by
  refine ((calm.getOrLock free).bind ?_).bind fun _ _ => id
  rintro _ w' (⟨bytes, rfl, correct, calm⟩ | ⟨lock, rfl, own, calm⟩ | ⟨rfl, calm⟩)
  · obtain ⟨found, holds, decoded⟩ := hits bytes correct
    show Ensures c (a.decode d.key (.ofBytes bytes) >>= fun value => pure (Lookup.cached value) :
      Operation (Lookup α)).run w' _
    rw [decoded]
    exact .inl ⟨found, rfl, holds, calm⟩
  · exact .inr ⟨some lock, rfl, fun _ same => Option.some.inj same ▸ own, calm⟩
  · exact .inr ⟨none, rfl, fun _ => nofun, calm⟩

/-- A read yields what is cached or what it loads, and leaves no lock
behind. The load runs while the lock of the key is held, and may itself read
under other keys. -/
theorem read (calm : Calm a c right held t w) (free : ∀ lock ∈ held, lock.cacheKey ≠ d.key)
    {load : Operation (Option α)}
    (hits : ∀ bytes, right d bytes → ∃ found, ends (.ok found) ∧
      a.decode d.key (.ofBytes bytes) = (pure found : Operation (Option α)))
    (loads : ∀ (lock : Option Cache.Lock) w', (∀ l, lock = some l → l.cacheKey = d.key) →
      Calm a c right (lock.toList ++ held) t w' → Ensures c load.run w' fun outcome w'' =>
        ends outcome ∧ Calm a c right (lock.toList ++ held) t w'') :
    Ensures c (a.read d.key load).run w fun outcome w' => ends outcome ∧ Calm a c right held t w' := by
  refine (calm.lookup free hits).andThen ?_ ?_
  · rintro lookup w' (⟨value, ⟨⟩, holds, calm⟩ | ⟨lock, ⟨⟩, own, calm⟩)
    · exact ⟨holds, calm⟩
    · refine (loads lock w' own calm).liftThen fun outcome w'' ⟨holds, calm⟩ => ?_
      exact calm.releaseLoad.liftThen fun _ w' calm => ⟨holds, calm⟩
  · rintro e w' (⟨_, ⟨⟩, _⟩ | ⟨_, ⟨⟩, _⟩)

end

end Calm

end Accounts

end AccountCache
