import AccountCache.Proofs.Interleaving.Unsteady
import AccountCache.Proofs.Layouts.Agreement
import AccountCache.Proofs.Locking.Conduct
import AccountCache.Proofs.Sequential.Contract

namespace AccountCache

open Cache (Agree Lock MemoryStore)
open Program (AsksOnly Conforms)
open Simulation (Backend Record Surroundings Unsteady World)

namespace Simulation

/-- Whether what is answered in one of two worlds, if it is asked for
something of some kind, may be answered in the other as well. -/
structure Simulates (around : Surroundings) (kind : Effect → Prop) (R : World → World → Prop) : Prop where
  clock : ∀ {w v}, R w v → v.clock = w.clock
  tables : ∀ {w v}, R w v → v.tables = w.tables
  wait : ∀ {w v} later, R w v → R (w.advanceTo later) (v.advanceTo later)
  step : ∀ {w v e answer w'}, R w v → kind e → w.Meets around e answer w' → ∃ v', v.Meets around e answer v' ∧ R w' v'
  crash : ∀ {w v r} number, R w v → kind (.cache r) → ((w.numbered number).serveCache r).1 = none →
    ((v.numbered number).serveCache r).1 = none ∧
      R ((w.numbered number).serveCache r).2 ((v.numbered number).serveCache r).2

variable {ι α : Type} [DecidableEq ι] {around : Surroundings} {kind : Effect → Prop} {R : World → World → Prop}
  {world world' w : World} {clients ps : ι → Action α} {log : List (Record ι)}

/-- Clients who ask for nothing of another kind do in one world what they do
in the other, at the same moments. This carries over whole runs, client by
client and step by step. -/
theorem Unsteady.simulate (simulates : Simulates around kind R) (start : R world world')
    (asks : ∀ i, AsksOnly kind (clients i)) (run : Unsteady around world clients log w ps) :
    ∃ v, R w v ∧ Unsteady around world' clients log v ps := by
  have both : ∃ v, R w v ∧ Unsteady around world' clients log v ps ∧ ∀ i, AsksOnly kind (ps i) := by
    induction run with
    | start => exact ⟨world', start, .start, asks⟩
    | wait later _ ih =>
      obtain ⟨v, related, run, asks⟩ := ih
      exact ⟨_, simulates.wait later related, run.wait later, asks⟩
    | @step log w ps e next answer w' i _ requests meets ih =>
      obtain ⟨v, related, run, asks⟩ := ih
      have here := asks i
      rw [requests] at here
      obtain ⟨_, own, rest⟩ := here answer
      obtain ⟨v', met, related'⟩ := simulates.step related own meets
      have done := run.step i requests met
      rw [simulates.clock related, simulates.tables related, simulates.tables related'] at done
      exact ⟨v', related', done, (Function.forall_update_iff ps fun _ => AsksOnly kind).2 ⟨rest, fun j _ => asks j⟩⟩
    | @crash log w ps r next i number _ requests broke ih =>
      obtain ⟨v, related, run, asks⟩ := ih
      have here := asks i
      rw [requests] at here
      obtain ⟨_, own, _⟩ := here (.error .pool)
      obtain ⟨broke', related'⟩ := simulates.crash number related own broke
      exact ⟨_, related', run.crash i number requests broke',
        (Function.forall_update_iff ps fun _ => AsksOnly kind).2 ⟨fun answer => answer.elim, fun j _ => asks j⟩⟩
  obtain ⟨v, related, run, _⟩ := both
  exact ⟨v, related, run⟩

end Simulation

/-- Whether an effect touches no lock other than as a lock. -/
def Effect.IsApart : Effect → Prop
  | cache r => r.isAboutLocks = false → ∀ key ∈ r.keys, ¬Key.IsLock key
  | _ => True

namespace Simulation.World

/-- Whether two worlds differ in no more than where they keep their locks,
and in what is there no longer: the first keeps them among the entries. -/
structure Alike (w v : World) : Prop where
  clock : w.clock = v.clock
  tables : w.tables = v.tables
  faults : w.cacheFault = v.cacheFault
  stores : ∃ one values locks, w.backend = .memory one none ∧ v.backend = .memory values (some locks) ∧
    Agree (¬Key.IsLock ·) w.clock one values ∧ Agree Key.IsLock w.clock one locks

variable {w v : World}

theorem Alike.numbered (alike : w.Alike v) (number : Nat) : (w.numbered number).Alike (v.numbered number) :=
  ⟨alike.clock, alike.tables, alike.faults, alike.stores⟩

theorem Alike.wait (alike : w.Alike v) (later : Instant) : (w.advanceTo later).Alike (v.advanceTo later) := by
  obtain ⟨one, values, locks, memory, memory', entries, guards⟩ := alike.stores
  have order : w.clock ≤ (w.advanceTo later).clock := Instant.le_max_left ..
  refine ⟨?_, alike.tables, alike.faults, one, values, locks, memory, memory', entries.wait order, guards.wait order⟩
  show max w.clock later = max v.clock later
  rw [alike.clock]

theorem isLock_of_isAboutLocks {r : Cache.Request} (about : r.isAboutLocks = true) :
    ∀ key ∈ r.keys, Key.IsLock key := by
  cases r with
  | acquire | release | isHeld => exact List.forall_mem_singleton.2 (Key.isLock_lock _)
  | _ => cases about

/-- The one store answers as that of the two does whose affair it is, since
a request touches no lock other than as a lock. -/
theorem Alike.serve (alike : w.Alike v) (tokens : w.tokenCount = v.tokenCount) {r : Cache.Request}
    (apart : Effect.IsApart (.cache r)) :
    (w.serveCache r).1 = (v.serveCache r).1 ∧ (w.serveCache r).2.Alike (v.serveCache r).2 := by
  obtain ⟨one, values, locks, memory, memory', entries, guards⟩ := alike.stores
  have same : w.token = v.token := by rw [token, token, tokens]
  rw [serveCache, serveCache, alike.faults]
  cases v.cacheFault r with
  | some e => exact ⟨rfl, alike⟩
  | none =>
    rw [memory, memory', ← alike.clock, ← same]
    cases about : r.isAboutLocks with
    | false =>
      have plain := apart about
      have answered := entries.serve w.token plain
      simp only [Backend.serve, about]
      -- The one store may have swept, but no lock that is live.
      refine ⟨answered.1, alike.clock, alike.tables, alike.faults, _, _, _, rfl, rfl, answered.2, fun key guard => ?_⟩
      have away : key ∉ r.keys := fun named => plain key named guard
      exact (MemoryStore.live?_serve _ away).trans (guards key guard)
    | true =>
      have named := isLock_of_isAboutLocks about
      have answered := guards.serve w.token named
      simp only [Backend.serve, about, if_true]
      refine ⟨answered.1, alike.clock, alike.tables, alike.faults, _, _, _, rfl, rfl, fun key plain => ?_, answered.2⟩
      have away : key ∉ r.keys := fun member => plain (named key member)
      exact (MemoryStore.live?_serve _ away).trans (entries key plain)

/-- Whether one of two worlds keeps locks among the entries and the other in
a store of their own, and they do not differ otherwise. -/
def Peers (w v : World) : Prop := w.Alike v ∨ v.Alike w

namespace Peers

theorem clock (peers : w.Peers v) : v.clock = w.clock :=
  peers.elim (fun alike => alike.clock.symm) fun alike => alike.clock

theorem tables (peers : w.Peers v) : v.tables = w.tables :=
  peers.elim (fun alike => alike.tables.symm) fun alike => alike.tables

theorem wait (peers : w.Peers v) (later : Instant) : (w.advanceTo later).Peers (v.advanceTo later) :=
  peers.imp (fun alike => alike.wait later) fun alike => alike.wait later

theorem put (peers : w.Peers v) (tables : Database.Tables) : Peers { w with tables } { v with tables } :=
  peers.imp (fun alike => ⟨alike.clock, rfl, alike.faults, alike.stores⟩) fun alike =>
    ⟨alike.clock, rfl, alike.faults, alike.stores⟩

theorem serve (peers : w.Peers v) (number : Nat) {r : Cache.Request} (apart : Effect.IsApart (.cache r)) :
    ((w.numbered number).serveCache r).1 = ((v.numbered number).serveCache r).1 ∧
      ((w.numbered number).serveCache r).2.Peers ((v.numbered number).serveCache r).2 := by
  rcases peers with alike | alike
  · obtain ⟨same, alike'⟩ := (alike.numbered number).serve rfl apart
    exact ⟨same, .inl alike'⟩
  · obtain ⟨same, alike'⟩ := (alike.numbered number).serve rfl apart
    exact ⟨same.symm, .inr alike'⟩

theorem quiet {around : Surroundings} (peers : w.Peers v) {e : Effect} {answer : e.Answer} (quiet : e.IsQuiet)
    (answers : w.Answers e answer w) : v.Meets around e answer v := by
  have clock := peers.clock
  cases e with
  | cache | database => cases quiet
  | overflow => exact answer.elim
  | clock last =>
    cases answers
    have answered := Answers.clock (w := v) last
    simp only [clock] at answered
    exact .quiet quiet answered
  | wallClock => exact .wallClock _
  | draw low high => exact .quiet quiet (.draw answer)
  | sleep wake =>
    cases answers with
    | sleep order =>
      have answered := Answers.sleep (w := v) (by rwa [clock])
      simp only [clock] at answered
      exact .quiet quiet answered
  | warn message => exact .quiet quiet (.warn message)

theorem simulates (around : Surroundings) : Simulates around Effect.IsApart Peers where
  clock := clock
  tables := tables
  wait later peers := peers.wait later
  step {w v e answer w'} peers apart meets := by
    cases meets with
    | @cache r answer _ number answers =>
      cases answers with
      | cache answered =>
        obtain ⟨same, peers'⟩ := peers.serve number apart
        exact ⟨_, .cache number (.cache (same ▸ answered)), peers'⟩
    | refused e may => exact ⟨v, .refused e may, peers⟩
    | database may =>
      rw [← peers.tables] at may
      exact ⟨_, .database may, peers.put _⟩
    | wallClock now => exact ⟨v, .wallClock now, peers⟩
    | quiet quiet answers => exact ⟨v, peers.quiet quiet answers, peers⟩
  crash number peers apart broke := by
    obtain ⟨same, peers'⟩ := peers.serve number apart
    exact ⟨same ▸ broke, peers'⟩

end Peers

end Simulation.World

theorem Holding.isApart {held held' : List (String × Lock)} {e : Effect} {answer : e.Answer}
    (move : Holding held e answer held') : e.IsApart := by
  cases move with
  | grant | refuse | fail | release => exact fun about => Bool.noConfusion about
  | aside spares =>
    cases e with
    | cache r =>
      cases r with
      | isHeld => exact fun about => Bool.noConfusion about
      | _ => exact fun _ => spares.2
    | _ => trivial

/-- Who gives back every lock touches none of them otherwise, so that no
client looks at a lock as if it were an entry. -/
theorem Program.Conforms.asksApart {α : Type} {p : Action α} {ends : List (String × Lock) → α → Prop}
    {held : List (String × Lock)} (conforms : p.Conforms Holding ends held) : AsksOnly Effect.IsApart p := by
  induction p generalizing held with
  | done value => exact .done value
  | ask e next ih =>
    intro answer
    obtain ⟨held', move, rest⟩ := conforms answer
    exact ⟨(), move.isApart, ih answer rest⟩

namespace Cache

/-- What a manager can be used for, by what it yields. -/
inductive Use : Type → Type
  | get (key : String) : Use (Option Cached)
  | getOrLock (key : String) : Use (Except Error Lookup)
  | acquireLock (key : String) : Use (Except Error (Option Lock))
  | release (lock : Lock) : Use Unit
  | store (item : Item) : Use (Except Error Unit)
  | storeMany (items : List Item) : Use (Except Error Unit)
  | storeAbsent (key : String) : Use (Except Error Unit)
  | delete (keys : List String) : Use (Except Error Unit)
  | increment (key : String) : Use (Except Error Int)
  | expire (key : String) (ttl : Duration) : Use (Except Error Unit)
  | lifetime (key : String) : Use (Except Error Lifetime)

namespace Use

variable {α : Type}

def perform (m : Manager) : Use α → Action α
  | get key => m.get key
  | getOrLock key => m.getOrLock key
  | acquireLock key => m.acquireLock key
  | release lock => Manager.release lock
  | store item => m.store item
  | storeMany items => m.storeMany items
  | storeAbsent key => m.storeAbsent key
  | delete keys => m.delete keys
  | increment key => m.increment key
  | expire key ttl => m.expire key ttl
  | lifetime key => m.lifetime key

def keys : Use α → List String
  | get key | getOrLock key | acquireLock key | storeAbsent key | increment key | expire key _ | lifetime key => [key]
  | release lock => [lock.cacheKey]
  | store item => [item.key]
  | storeMany items => items.map (·.key)
  | delete keys => keys

theorem asksApart (m : Manager) (use : Use α) (plain : ∀ key ∈ use.keys, ¬Key.IsLock key) :
    AsksOnly Effect.IsApart (use.perform m) := by
  have warned : ∀ message, AsksOnly Effect.IsApart (Action.warn message) := fun message => .ask trivial fun _ => .done _
  cases use with
  | get key =>
    have own := plain key (List.mem_singleton_self key)
    rw [perform, Manager.get]
    split
    · exact .done _
    · have checks : (Manager.checkCache key).Conforms Holding (fun held' _ => held' = []) [] :=
        Manager.holds_checkCache own
      exact checks.asksApart
  | getOrLock key =>
    have own := plain key (List.mem_singleton_self key)
    exact (m.holds_getOrLock own (List.forall_mem_nil _)).asksApart
  | acquireLock key =>
    rw [perform, Manager.acquireLock]
    split
    · exact .done _
    · exact .ask (fun about => Bool.noConfusion about) fun _ => .done _
  | release lock =>
    refine .ask (fun about => Bool.noConfusion about) fun answer => ?_
    rcases answer with e | _ | _
    · exact warned _
    · exact warned _
    · exact .done _
  | store item =>
    rw [perform, Manager.store]
    split
    · exact .done _
    · exact .ask (fun _ => plain) fun _ => .done _
  | storeMany items =>
    rw [perform, Manager.storeMany]
    split
    · exact .done _
    · have own : ∀ key ∈ (Request.setMany (items.map m.entry)).keys, ¬Key.IsLock key := by
        rw [Request.keys, List.map_map]
        exact plain
      exact .ask (fun _ => own) fun _ => .done _
  | storeAbsent key =>
    rw [perform, Manager.storeAbsent, Manager.store]
    split
    · exact .done _
    · exact .ask (fun _ => plain) fun _ => .done _
  | delete keys =>
    rw [perform, Manager.delete]
    split
    · exact .done _
    · exact .ask (fun _ => plain) fun _ => .done _
  | increment key =>
    rw [perform, Manager.increment]
    split
    · exact .done _
    · exact .ask (fun _ => plain) fun _ => .done _
  | expire key ttl =>
    rw [perform, Manager.expire]
    split
    · exact .done _
    · refine .ask (fun _ => plain) fun answer => ?_
      cases answer with
      | ok | error => exact .done _
  | lifetime key =>
    rw [perform, Manager.lifetime]
    split
    · exact .done _
    · refine .ask (fun _ => plain) fun answer => ?_
      cases answer with
      | ok | error => exact .done _

end Use

end Cache

namespace Accounts

variable {α : Type} {a : Accounts}

/-- Whether a program does nothing with the cache but by operations, those
of a manager on keys that are no locks' and those on accounts, in whatever
order and whatever else it does. -/
inductive IsClient (a : Accounts) : Action α → Prop
  | done (value : α) : IsClient a (.done value)
  | use {β : Type} (use : Cache.Use β) {f : β → Action α} : (∀ key ∈ use.keys, ¬Key.IsLock key) →
    (∀ value, IsClient a (f value)) → IsClient a ((use.perform a.cache).bind f)
  | serve {β : Type} (service : Service β) {f : Except Error β → Action α} :
    (∀ outcome, IsClient a (f outcome)) → IsClient a ((service.perform a).run.bind f)
  | beside {e : Effect} {next : e.Answer → Action α} : (∀ r, e ≠ .cache r) →
    (∀ answer, IsClient a (next answer)) → IsClient a (.ask e next)

theorem IsClient.asksApart {p : Action α} (client : IsClient a p) : AsksOnly Effect.IsApart p := by
  induction client with
  | done value => exact .done value
  | use use plain _ ih => exact (use.asksApart a.cache plain).bind ih
  | serve service _ ih =>
    have asks : AsksOnly Effect.IsApart (service.perform a).run := Conforms.asksApart service.restores
    exact asks.bind ih
  | @beside e next other _ ih =>
    cases e with
    | cache r => exact absurd rfl (other r)
    | _ => exact .ask trivial ih

/-- Whether locks are kept among the entries or in a store of their own,
clients of a manager may do and hear the same, at the same moments, wherever
the clock runs alike and the same tokens and delays are drawn: if to begin
with the same entries are live and the same locks, then what is possible
with one layout is possible with the other. How large the stores are when
they sweep does not matter. -/
theorem one_store_or_two (a : Accounts) (around : Surroundings) (world : World) (one values locks : MemoryStore)
    (entries : ∀ key, ¬Key.IsLock key → one.live? world.clock key = values.live? world.clock key)
    (guards : ∀ key, Key.IsLock key → one.live? world.clock key = locks.live? world.clock key)
    {ι : Type} [DecidableEq ι] (clients : ι → Action α) (plain : ∀ i, IsClient a (clients i)) (log : List (Record ι))
    (ps : ι → Action α) :
    (∃ w, Unsteady around { world with backend := .memory one none } clients log w ps) ↔
      ∃ w, Unsteady around { world with backend := .memory values (some locks) } clients log w ps := by
  have alike : World.Alike { world with backend := .memory one none }
      { world with backend := .memory values (some locks) } :=
    ⟨rfl, rfl, rfl, one, values, locks, rfl, rfl, entries, guards⟩
  have simulates := World.Peers.simulates around
  have asks := fun i => (plain i).asksApart
  constructor
  · rintro ⟨w, run⟩
    obtain ⟨v, _, run'⟩ := run.simulate simulates (.inl alike) asks
    exact ⟨v, run'⟩
  · rintro ⟨w, run⟩
    obtain ⟨v, _, run'⟩ := run.simulate simulates (.inr alike) asks
    exact ⟨v, run'⟩

/-- A lock is got in the same way from a store that sweeps at every write
and from one that never does. -/
theorem lock_in_either_layout : ∃ log w w', ∃ ps : Unit → Action (Except Cache.Error Cache.Lookup),
    Unsteady ⟨Database.Tables.Permits, fun _ => False⟩ { backend := .memory (.withThreshold 0 .start) none }
      (fun _ => ((Cache.Use.getOrLock "k").perform default).bind .done) log w ps ∧
    Unsteady ⟨Database.Tables.Permits, fun _ => False⟩
      { backend := .memory (.withThreshold 100 .start) (some (.withThreshold 100 .start)) }
      (fun _ => ((Cache.Use.getOrLock "k").perform default).bind .done) log w' ps ∧
    ∃ lock, ps () = .done (.ok (.owner lock)) := by
  have later := (@Unsteady.start Unit _ _ ⟨Database.Tables.Permits, fun _ => False⟩
    { backend := .memory (.withThreshold 0 .start) none }
    fun _ => ((Cache.Use.getOrLock "k").perform default).bind .done).wait ⟨2000000000⟩
  have missed := later.step () rfl (.of_serve 0 (.ok none) rfl)
  have locked := missed.step () rfl (.of_serve 0 (.ok (some ⟨"k", _, _⟩)) rfl)
  have plain : ∀ _ : Unit, IsClient ⟨default, ⟨5, .ofSeconds 60⟩⟩
      (((Cache.Use.getOrLock "k").perform default).bind .done) := fun _ =>
    .use (.getOrLock "k") (List.forall_mem_singleton.2 (by decide)) .done
  obtain ⟨w', other⟩ := (one_store_or_two ⟨default, ⟨5, .ofSeconds 60⟩⟩ ⟨Database.Tables.Permits, fun _ => False⟩ {}
    (.withThreshold 0 .start) (.withThreshold 100 .start) (.withThreshold 100 .start) (fun _ _ => rfl)
    (fun _ _ => rfl) _ plain _ _).1 ⟨_, locked⟩
  exact ⟨_, _, w', _, locked, other, _, rfl⟩

end Accounts

end AccountCache
