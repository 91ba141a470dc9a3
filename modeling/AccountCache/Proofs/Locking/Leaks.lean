import AccountCache.Proofs.Interleaving.Unsteady
import AccountCache.Proofs.Locking.Conduct
import AccountCache.Proofs.Sequential.Calm
import Mathlib.Data.List.Perm.Subperm

namespace AccountCache

open Cache (Lock Stored)
open Program (Course Ends)
open Simulation (Backend Record Surroundings Unsteady World heard)

namespace Cache

theorem MemoryStore.live?_of_crash {s : MemoryStore} {now : Instant} {token key : String} {r : Request}
    (about : r.isAboutLocks = true) (crashed : (s.serve now token r).1 = none) :
    (s.serve now token r).2.live? now key = s.live? now key := by
  cases r with
  | acquire cacheKey expiry tries =>
    simp only [serve, acquire] at crashed ⊢
    split at crashed
    · cases crashed
    · split at crashed
      · cases crashed
      · exact s.live?_maybeSweep
  | release | isHeld => cases crashed
  | _ => cases about

theorem MemoryStore.error_of_increment {s : MemoryStore} {now : Instant} {key : String} {e : Error}
    (failed : (s.increment now key).1 = .error e) : e = .notAnInteger key ∨ e = .overflow key := by
  simp only [increment] at failed
  split at failed
  · cases failed
  · split at failed
    · exact .inl (Except.error.inj failed).symm
    · split at failed
      · exact .inr (Except.error.inj failed).symm
      · cases failed

/-- Whether a request is one of those that may fail without harm: any but
those that give a lock back, for then the lock stays, and those by which
failed logins are counted. -/
def Request.MayFail : Request → Prop
  | get _ | set _ | setMany _ | delete _ | isHeld _ | acquire .. => True
  | _ => False

end Cache

namespace Simulation.World

variable {w w' : World} {around : Surroundings}

theorem Reliable.crash (reliable : w.Reliable) {r : Cache.Request} (crashed : (w.serveCache r).1 = none)
    (apart : r.isAboutLocks = true ∨ ∀ key, Key.lock key ∉ r.keys) :
    (w.serveCache r).2.Reliable ∧ ∀ key, (w.serveCache r).2.guard? key = w.guard? key := by
  obtain ⟨⟨values, locks, memory⟩, faultless⟩ := reliable
  rw [serveCache, faultless r, memory] at crashed ⊢
  cases locks with
  | none =>
    refine ⟨⟨⟨_, _, rfl⟩, faultless⟩, fun key => ?_⟩
    simp only [guard?, memory]
    rcases apart with about | away
    · exact Cache.MemoryStore.live?_of_crash about crashed
    · exact Cache.MemoryStore.live?_serve _ (away key)
  | some locks =>
    cases about : r.isAboutLocks with
    | true =>
      simp only [Backend.serve, about, if_true] at crashed ⊢
      refine ⟨⟨⟨_, _, rfl⟩, faultless⟩, fun key => ?_⟩
      simp only [guard?, memory]
      exact Cache.MemoryStore.live?_of_crash about crashed
    | false =>
      simp only [Backend.serve, about] at crashed ⊢
      refine ⟨⟨⟨_, _, rfl⟩, faultless⟩, fun key => ?_⟩
      simp only [guard?, memory]
      rfl

theorem Reliable.numbered (reliable : w.Reliable) (number : Nat) : (w.numbered number).Reliable :=
  ⟨reliable.memory, reliable.faultless⟩

theorem Reliable.meets (reliable : w.Reliable) {e : Effect} {answer : e.Answer} (meets : w.Meets around e answer w') :
    w'.Reliable := by
  cases meets with
  | cache number answers => exact (reliable.numbered number).cache answers
  | refused | wallClock | quiet => exact reliable
  | database => exact ⟨reliable.memory, reliable.faultless⟩

/-- What spares the locks leaves them as they are. -/
theorem Reliable.guard?_of_spares (reliable : w.Reliable) {e : Effect} {answer : e.Answer}
    (meets : w.Meets around e answer w') (spares : e.SparesLocks) (key : String) : w'.guard? key = w.guard? key := by
  cases meets with
  | @cache r _ _ number answers =>
    have away : r.isAboutLocks = false → (∀ key ∈ r.keys, ¬Key.IsLock key) → w'.guard? key = w.guard? key :=
      fun _ plain => (reliable.numbered number).guard?_eq answers fun named => plain _ named (Key.isLock_lock key)
    cases r with
    | isHeld cacheKey =>
      obtain ⟨_, _, locks, view, _, view'⟩ := (reliable.numbered number).answers_locks answers rfl
      rw [view', Cache.MemoryStore.serve, Cache.MemoryStore.isHeld, Cache.MemoryStore.live?_dropExpired]
      exact (view key).symm
    | _ => exact away spares.1 spares.2
  | refused | wallClock | quiet => rfl
  | database => rfl

theorem Reliable.guard?_of_acquire (reliable : w.Reliable) {asked key : String} {expiry : Duration} {tries : Nat}
    {answer : Except Cache.Error (Option Lock)} (answers : w.Answers (.cache (.acquire asked expiry tries)) answer w')
    (other : asked ≠ key) : w'.guard? key = w.guard? key := by
  have away : Key.lock key ∉ Cache.Request.keys (.acquire asked expiry tries) := fun named =>
    other (Key.lock_injective (List.mem_singleton.1 named)).symm
  exact reliable.guard?_eq answers away

end Simulation.World

namespace Accounts

def granted (talk : List (Exchange effects)) : List Lock :=
  talk.filterMap fun
    | ⟨.cache (.acquire ..), .ok (some lock)⟩ => some lock
    | _ => none

def released (talk : List (Exchange effects)) : List Lock :=
  talk.filterMap fun
    | ⟨.cache (.release lock), _⟩ => some lock
    | _ => none

variable {ι : Type} [DecidableEq ι] {around : Surroundings} {world w w' : World} {log : List (Record ι)}
  {held : ι → List (String × Lock)} {a : Accounts}

/-- How things stand while several clients hold locks: what is locked in the
cache was locked by one of them, who has it still, and whatever a client got
it has or has given back. -/
structure Guarded (log : List (Record ι)) (w : World) (held : ι → List (String × Lock)) : Prop where
  reliable : w.Reliable
  owned : ∀ key guard, w.guard? key = some guard →
    ∃ i lock, (key, lock) ∈ held i ∧ lock.cacheKey = key ∧ guard.value = .ofText lock.token
  settled : ∀ i, (granted (heard i log)).Perm ((held i).map (·.2) ++ released (heard i log))

theorem granted_append (talk talk' : List (Exchange effects)) :
    granted (talk ++ talk') = granted talk ++ granted talk' := List.filterMap_append ..

theorem released_append (talk talk' : List (Exchange effects)) :
    released (talk ++ talk') = released talk ++ released talk' := List.filterMap_append ..

/-- Who keeps to the rule has what it got and did not give back. The lists
count, so that no lock is given back twice. -/
theorem perm_of_holding {talk : List (Exchange effects)} {here there : List (String × Lock)} {e : Effect}
    {answer : e.Answer} (move : Holding here e answer there)
    (settled : (granted talk).Perm (here.map (·.2) ++ released talk)) :
    (granted (talk ++ [⟨e, answer⟩])).Perm (there.map (·.2) ++ released (talk ++ [⟨e, answer⟩])) := by
  rw [granted_append, released_append]
  cases move with
  | @grant _ key expiry tries lock =>
    have got : granted [⟨.cache (.acquire key expiry tries), .ok (some lock)⟩] = [lock] := rfl
    have none : released [⟨.cache (.acquire key expiry tries), .ok (some lock)⟩] = [] := rfl
    rw [got, none, List.append_nil, List.map_cons, List.cons_append]
    exact (List.perm_append_singleton lock _).trans (settled.cons lock)
  | @release _ key lock answer =>
    have none : granted [⟨.cache (.release lock), answer⟩] = [] := rfl
    have back : released [⟨.cache (.release lock), answer⟩] = [lock] := rfl
    rw [none, back, List.append_nil, ← List.append_assoc]
    rw [List.map_cons, List.cons_append] at settled
    exact settled.trans (List.perm_append_singleton lock _).symm
  | refuse | fail =>
    rw [← granted_append, ← released_append]
    simpa [granted, released] using settled
  | aside spares =>
    have none : granted [⟨e, answer⟩] = [] ∧ released [⟨e, answer⟩] = [] := by
      cases e with
      | cache r =>
        cases r with
        | acquire | release => exact absurd spares.1 Bool.noConfusion
        | _ => exact ⟨rfl, rfl⟩
      | _ => exact ⟨rfl, rfl⟩
    rw [none.1, none.2, List.append_nil, List.append_nil]
    exact settled

namespace Guarded

theorem start (reliable : world.Reliable) (free : ∀ key, world.guard? key = none) :
    Guarded [] world fun _ : ι => [] where
  reliable := reliable
  owned key guard live := by
    rw [free key] at live
    cases live
  settled _ := .nil

theorem wait (guarded : Guarded log w held) (later : Instant) : Guarded log (w.advanceTo later) held where
  reliable := guarded.reliable.advanceTo later
  owned key guard live := guarded.owned key guard (World.guard?_of_advanceTo live)
  settled := guarded.settled

theorem crash (guarded : Guarded log w held) {r : Cache.Request} {i : ι} (number : Nat)
    (may : ∀ answer, ∃ held', Holding (held i) (.cache r) answer held')
    (crashed : ((w.numbered number).serveCache r).1 = none) :
    Guarded log ((w.numbered number).serveCache r).2 held := by
  -- Who crashes got no answer; that the request is one to be made shows from any that it might have got.
  have apart : r.isAboutLocks = true ∨ ∀ key, Key.lock key ∉ r.keys := by
    obtain ⟨held', move⟩ := may (.error .pool)
    generalize held i = here at move
    cases move with
    | fail | release => exact .inl rfl
    | aside spares =>
      cases r with
      | isHeld => exact .inl rfl
      | _ => exact .inr fun key named => spares.2 _ named (Key.isLock_lock key)
  obtain ⟨reliable, same⟩ := (guarded.reliable.numbered number).crash crashed apart
  refine ⟨reliable, fun key guard live => ?_, guarded.settled⟩
  rw [same] at live
  exact guarded.owned key guard live

/-- A step after which there is no lock in the cache that was not there
before, and which gives up none but those that went. -/
theorem of_guards (guarded : Guarded log w held) {i : ι} {e : Effect} {answer : e.Answer}
    {there : List (String × Lock)} (meets : w.Meets around e answer w') (move : Holding (held i) e answer there)
    (owned : ∀ key guard, w'.guard? key = some guard →
      (∃ lock, (key, lock) ∈ there ∧ lock.cacheKey = key ∧ guard.value = .ofText lock.token) ∨
      w.guard? key = some guard ∧
        ∀ lock, (key, lock) ∈ held i → lock.cacheKey = key → guard.value = .ofText lock.token → (key, lock) ∈ there) :
    Guarded (⟨⟨i, e, answer⟩, w.clock, w.tables, w'.tables⟩ :: log) w' (Function.update held i there) where
  reliable := guarded.reliable.meets meets
  owned key guard live := by
    rcases owned key guard live with ⟨lock, member, own⟩ | ⟨before, keeps⟩
    · refine ⟨i, lock, ?_, own⟩
      rw [Function.update_self]
      exact member
    · obtain ⟨j, lock, member, named, own⟩ := guarded.owned key guard before
      refine ⟨j, lock, ?_, named, own⟩
      by_cases same : j = i
      · subst same
        rw [Function.update_self]
        exact keeps lock member named own
      · rw [Function.update_of_ne same]
        exact member
  settled j := by
    rw [Simulation.heard_cons]
    by_cases same : i = j
    · subst same
      rw [if_pos rfl, Function.update_self]
      exact perm_of_holding move (guarded.settled i)
    · rw [if_neg same, Function.update_of_ne (Ne.symm same)]
      exact guarded.settled j

theorem step (guarded : Guarded log w held) {i : ι} {e : Effect} {answer : e.Answer} {there : List (String × Lock)}
    (mild : ∀ r, around.refuses r → r.MayFail) (meets : w.Meets around e answer w')
    (move : Holding (held i) e answer there) :
    Guarded (⟨⟨i, e, answer⟩, w.clock, w.tables, w'.tables⟩ :: log) w' (Function.update held i there) := by
  refine guarded.of_guards meets move fun key guard live => ?_
  have reliable := guarded.reliable
  generalize held i = here at move
  cases move with
  | @grant _ asked expiry tries lock _ lasting =>
    cases meets with
    | cache number answers =>
      by_cases same : asked = key
      · subst same
        have got := (reliable.numbered number).acquire answers lasting
        obtain ⟨_, _, ⟨_, ⟨⟩, _⟩ | ⟨_, guard', ⟨⟩, named, _, now, own⟩⟩ := got
        cases live.symm.trans now
        exact .inl ⟨lock, List.mem_cons_self, named, own⟩
      · rw [(reliable.numbered number).guard?_of_acquire answers same] at live
        exact .inr ⟨live, fun _ member _ _ => List.mem_cons_of_mem _ member⟩
    | quiet quiet => cases quiet
  | @refuse _ asked expiry tries _ lasting =>
    cases meets with
    | cache number answers =>
      refine .inr ⟨?_, fun _ member _ _ => member⟩
      by_cases same : asked = key
      · subst same
        have refused := (reliable.numbered number).acquire answers lasting
        obtain ⟨_, _, ⟨guard', _, before, now⟩ | ⟨_, _, ⟨⟩, _⟩⟩ := refused
        cases live.symm.trans now
        exact before
      · exact ((reliable.numbered number).guard?_of_acquire answers same).symm.trans live
    | quiet quiet => cases quiet
  | fail =>
    cases meets with
    | cache number answers => exact absurd ((reliable.numbered number).isIncrement_of_error answers) Bool.noConfusion
    | refused => exact .inr ⟨live, fun _ member _ _ => member⟩
    | quiet quiet => cases quiet
  | release =>
    cases meets with
    | cache number answers =>
      -- What is still locked has another token than the lock that went, so that it is no loss.
      obtain ⟨before, other⟩ := (reliable.numbered number).guard?_of_release answers live
      refine .inr ⟨before, fun lock' member named own => ?_⟩
      rcases List.mem_cons.1 member with same | later
      · cases same
        exact absurd ⟨named, own⟩ other
      · exact later
    | refused _ may => exact (mild _ may).elim
    | quiet quiet => cases quiet
  | aside spares =>
    rw [reliable.guard?_of_spares meets spares] at live
    exact .inr ⟨live, fun _ member _ _ => member⟩

end Guarded

/-- Operations that one client carries out one after the other. -/
def performAll (a : Accounts) : List (Σ α : Type, Service α) → Action (List (Option Error))
  | [] => .done []
  | service :: rest =>
    (service.2.errand a).bind fun outcome => (performAll a rest).bind fun outcomes => .done (outcome :: outcomes)

def Error.IsBusy : Error → Prop
  | .cache (.waitTooLong ..) => True
  | _ => False

/-- Whether an exchange makes nobody believe that a lock is taken. -/
def LeavesFree : Exchange effects → Prop
  | ⟨.cache (.acquire ..), .ok none⟩ => False
  | ⟨.cache r, .error (.waitTooLong ..)⟩ => r.MayFail
  | _ => True

theorem Service.restores_errand {α : Type} (service : Service α) : Restores [] (service.errand a) :=
  service.restores.bind fun _ _ same => same

theorem restores_performAll (services : List (Σ α : Type, Service α)) : Restores [] (performAll a services) := by
  induction services with
  | nil => exact rfl
  | cons service rest ih =>
    refine service.2.restores_errand.bind ?_
    rintro _ outcome rfl
    exact ih.bind fun _ _ same => same

/-- Whether an operation that ends in an error does so for another reason
than that others had a lock. -/
def IsFree {α : Type} (outcome : Except Error α) : Prop := ∀ e, outcome = .error e → ¬e.IsBusy

theorem IsFree.ok {α : Type} (value : α) : IsFree (.ok value) := fun _ => nofun

theorem Job.ends_free {α : Type} (job : Job α) : (job.perform a).run.Ends LeavesFree IsFree := by
  refine job.ends.mono fun outcome expected e failed => ?_
  subst failed
  cases Job.surfaces expected with
  | database | corrupt => exact id
  | late taken => exact taken.elim

theorem not_isBusy_of_leavesFree {r : Cache.Request} {e : Cache.Error} (heard : LeavesFree ⟨.cache r, .error e⟩)
    (serious : ¬r.MayFail) : ¬(Error.cache e).IsBusy := by
  cases e with
  | waitTooLong =>
    cases r with
    | increment | expire | ttl | release => exact absurd heard serious
    | _ => exact absurd trivial serious
  | _ => exact id

/-- A request that has to succeed does not fail for want of a lock. -/
theorem ends_free_of_cache {α : Type} {r : Cache.Request} (serious : ¬r.MayFail)
    {next : Except Cache.Error r.Result → Action (Except Cache.Error α)}
    (passes : ∀ answer, ∃ outcome, next answer = .done outcome ∧ ∀ e, outcome = .error e → answer = .error e) :
    (Operation.cache (Program.ask (I := effects) (.cache r) next)).run.Ends LeavesFree IsFree := by
  intro answer heard
  obtain ⟨outcome, ended, passed⟩ := passes answer
  show ((next answer).bind _).Ends LeavesFree IsFree
  rw [ended]
  cases outcome with
  | ok value => exact fun e => nofun
  | error e =>
    rintro _ ⟨⟩
    rw [passed e rfl] at heard
    exact not_isBusy_of_leavesFree heard serious

theorem ends_free_andThen {α β : Type} {p : Operation α} {f : α → Operation β} (first : p.run.Ends LeavesFree IsFree)
    (rest : ∀ value, (f value).run.Ends LeavesFree IsFree) : (p >>= f).run.Ends LeavesFree IsFree := by
  refine ends_andThen first (fun value _ => rest value) fun e free => ?_
  rintro _ ⟨⟩
  exact free e rfl

section

variable (m : Cache.Manager) (key : String)

theorem ends_free_increment : (Operation.cache (m.increment key)).run.Ends LeavesFree IsFree := by
  rw [Cache.Manager.increment]
  split
  · exact IsFree.ok _
  · exact ends_free_of_cache id fun answer => ⟨answer, rfl, fun _ => id⟩

theorem ends_free_expire (ttl : Duration) : (Operation.cache (m.expire key ttl)).run.Ends LeavesFree IsFree := by
  rw [Cache.Manager.expire]
  split
  · exact IsFree.ok _
  · refine ends_free_of_cache id fun answer => ?_
    cases answer with
    | ok value => exact ⟨_, rfl, fun _ same => by cases same⟩
    | error e => exact ⟨_, rfl, fun _ same => by cases same; rfl⟩

theorem ends_free_lifetime : (Operation.cache (m.lifetime key)).run.Ends LeavesFree IsFree := by
  rw [Cache.Manager.lifetime]
  split
  · exact IsFree.ok _
  · refine ends_free_of_cache id fun answer => ?_
    cases answer with
    | ok value => exact ⟨_, rfl, fun _ same => by cases same⟩
    | error e => exact ⟨_, rfl, fun _ same => by cases same; rfl⟩

end

theorem Service.ends_free {α : Type} (service : Service α) : (service.perform a).run.Ends LeavesFree IsFree := by
  cases service with
  | job job => exact job.ends_free
  | countLoginAttempt address =>
    refine ends_free_andThen (ends_free_increment _ _) fun attempts => ?_
    exact ends_free_andThen (ends_free_expire _ _ _) fun _ => IsFree.ok attempts
  | isLoginLocked address =>
    refine ends_free_andThen (ends_free_lifetime _ _) fun lifetime => ?_
    split
    · refine ends_anyway fun found => ?_
      split
      · exact IsFree.ok _
      · rintro _ ⟨⟩
        exact id
    · exact IsFree.ok _

theorem Service.errand_ends {α : Type} (service : Service α) :
    (service.errand a).Ends LeavesFree fun outcome => ∀ e, outcome = some e → ¬e.IsBusy := by
  refine service.ends_free.bind fun outcome free => ?_
  cases outcome with
  | ok => exact fun _ => nofun
  | error e =>
    rintro _ ⟨⟩
    exact free e rfl

theorem performAll_ends (services : List (Σ α : Type, Service α)) :
    (performAll a services).Ends LeavesFree fun outcomes => ∀ e, some e ∈ outcomes → ¬e.IsBusy := by
  induction services with
  | nil => exact fun _ => nofun
  | cons service rest ih =>
    refine service.2.errand_ends.bind fun outcome free => ih.bind fun outcomes frees => ?_
    intro e member
    rcases List.mem_cons.1 member with own | later
    · exact free e own.symm
    · exact frees e later

/-- One who is alone and keeps to the rule never finds a lock taken,
because any lock that is taken is its own, and it does not ask for
that one again. -/
theorem leavesFree_of_alone {log : List (Record Unit)} {held : Unit → List (String × Lock)} {e : Effect}
    {answer : e.Answer} {there : List (String × Lock)} (guarded : Guarded log w held)
    (mild : ∀ r, around.refuses r → r.MayFail) (meets : w.Meets around e answer w')
    (move : Holding (held ()) e answer there) : LeavesFree ⟨e, answer⟩ := by
  cases meets with
  | @cache r answer _ number answers =>
    have reliable := guarded.reliable.numbered number
    cases answer with
    | ok value =>
      cases r with
      | acquire key expiry tries =>
        cases value with
        | some lock => trivial
        | none =>
          generalize same : held () = here at move
          cases move with
          | refuse free lasting =>
            -- A lock that is taken would be one's own, and one does not ask for that again.
            obtain ⟨_, _, ⟨guard, _, live, _⟩ | ⟨_, _, ⟨⟩, _⟩⟩ := reliable.acquire answers lasting
            obtain ⟨_, lock, member, _⟩ := guarded.owned key guard live
            rw [same] at member
            exact free _ member rfl
          | aside spares => exact absurd spares.1 Bool.noConfusion
      | _ => trivial
    | error e =>
      have counts := reliable.isIncrement_of_error answers
      cases r with
      | increment key =>
        obtain ⟨_, _, values, _, answered, _⟩ := reliable.answers_values answers rfl
        rcases Cache.MemoryStore.error_of_increment (Option.some.inj answered) with rfl | rfl
        · trivial
        · trivial
      | _ => cases counts
  | @refused r e may =>
    have harmless := mild r may
    cases r <;> cases e <;> trivial
  | database | wallClock => trivial
  | quiet quiet =>
    cases e with
    | cache | database => cases quiet
    | _ => trivial

/-- Whatever goes wrong with the database, and whichever requests to the
cache fail other than those that give a lock back or count, an operation
that has ended has given back each lock that it got, as often as it got it
and never before. When all have ended no lock is left. Operations of one
client that follow one another never fail because of a lock. -/
theorem no_lock_leaked (a : Accounts) (around : Surroundings) (mild : ∀ r, around.refuses r → r.MayFail)
    (world : World) (reliable : world.Reliable) (free : ∀ key, world.guard? key = none) :
    (∀ {ι : Type} [DecidableEq ι] (services : ι → Σ α : Type, Service α) (log : List (Record ι)) (w : World)
        (ps : ι → Action (Option Error)),
      Unsteady around world (fun i => (services i).2.errand a) log w ps →
      (∀ i, (released (heard i log)).Subperm (granted (heard i log))) ∧
      (∀ i outcome, ps i = .done outcome → (released (heard i log)).Perm (granted (heard i log))) ∧
      ((∀ i, ∃ outcome, ps i = .done outcome) → ∀ key, w.guard? key = none)) ∧
    ∀ (services : List (Σ α : Type, Service α)) (log : List (Record Unit)) (w : World)
        (ps : Unit → Action (List (Option Error))) (outcomes : List (Option Error)),
      Unsteady around world (fun _ => performAll a services) log w ps → ps () = .done outcomes →
      ∀ e, some e ∈ outcomes → ¬e.IsBusy := by
  constructor
  · intro ι _ services log w ps run
    obtain ⟨held, guarded, conform⟩ := run.invariant Guarded (fun _ => Holding) (fun _ => ([] : List (String × Lock)))
      (.start reliable free) (fun i => (services i).2.restores_errand) (fun later guarded => guarded.wait later)
      (fun guarded meets move => guarded.step mild meets move) fun number guarded may crashed =>
        guarded.crash number may crashed
    have none_left : ∀ i outcome, ps i = .done outcome → held i = [] := by
      intro i outcome ended
      have here := conform i
      rw [ended] at here
      exact here
    refine ⟨fun i => ?_, fun i outcome ended => ?_, fun ended key => ?_⟩
    · have settled := guarded.settled i
      exact (List.sublist_append_right _ _).subperm.trans settled.symm.subperm
    · have settled := guarded.settled i
      rw [none_left i outcome ended] at settled
      exact settled.symm
    · refine Option.eq_none_iff_forall_ne_some.2 fun guard live => ?_
      obtain ⟨i, lock, member, _⟩ := guarded.owned key guard live
      obtain ⟨outcome, ended⟩ := ended i
      rw [none_left i outcome ended] at member
      cases member
  · intro services log w ps outcomes run ended
    obtain ⟨held, ⟨_, frees⟩, _⟩ := run.invariant
      (fun log w held => Guarded log w held ∧ ∀ x ∈ log, LeavesFree ⟨x.effect, x.answer⟩) (fun _ => Holding)
      (fun _ => []) ⟨.start reliable free, fun _ => nofun⟩ (fun _ => restores_performAll services)
      (fun later ⟨guarded, frees⟩ => ⟨guarded.wait later, frees⟩)
      (fun ⟨guarded, frees⟩ meets move => ⟨guarded.step mild meets move,
        List.forall_mem_cons.2 ⟨leavesFree_of_alone guarded mild meets move, frees⟩⟩)
      fun number ⟨guarded, frees⟩ may crashed => ⟨guarded.crash number may crashed, frees⟩
    have known : ∀ x ∈ heard () log, LeavesFree x := by
      intro x told
      obtain ⟨y, member, _, rfl⟩ := Simulation.exists_of_mem_heard told
      exact frees y member
    exact (performAll_ends services).of_course (run.course_of_done ended) known

/-- A lookup that the database fails gives back its lock. -/
theorem lock_back_after_failure : ∃ log w, ∃ ps : Unit → Action (Option Error),
    Unsteady ⟨fun _ _ _ _ => True, Cache.Request.MayFail⟩ {}
      (fun _ => (Service.job (.findUser .zero)).errand ⟨default, ⟨5, .ofSeconds 60⟩⟩) log w ps ∧
    ps () = .done (some (.database (.connection "down"))) ∧
    (released (heard () log)).map (·.cacheKey) = [Key.user .zero] ∧
    (released (heard () log)).Perm (granted (heard () log)) ∧ ∀ key, w.guard? key = none := by
  have fresh := @Unsteady.start Unit _ _ ⟨fun _ _ _ _ => True, Cache.Request.MayFail⟩ {}
    fun _ => (Service.job (.findUser .zero)).errand ⟨default, ⟨5, .ofSeconds 60⟩⟩
  have missed := fresh.step () rfl (.of_serve 0 (.ok none) rfl)
  have locked := missed.step () rfl
    (.of_serve 0 (.ok (some ⟨Key.user .zero, _, _⟩)) rfl)
  have failed := locked.step () rfl (@World.Meets.database _ _ _ (.error (.connection "down")) {} trivial)
  have freed := failed.step () rfl (.of_serve 0 (.ok true) rfl)
  have ⟨every, _⟩ := no_lock_leaked ⟨default, ⟨5, .ofSeconds 60⟩⟩ ⟨fun _ _ _ _ => True, Cache.Request.MayFail⟩
    (fun _ => id) {} ⟨⟨_, _, rfl⟩, fun _ => rfl⟩ fun _ => rfl
  obtain ⟨_, back, left⟩ := every (fun _ => ⟨_, .job (.findUser .zero)⟩) _ _ _ freed
  exact ⟨_, _, _, freed, rfl, rfl, back () _ rfl, left fun _ => ⟨_, rfl⟩⟩

end Accounts

end AccountCache
