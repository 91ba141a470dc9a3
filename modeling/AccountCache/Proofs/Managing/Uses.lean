import AccountCache.Proofs.Limits.Runs

namespace AccountCache

open Cache (Lock Manager MemoryStore Use horizon)
open Program (Minds)
open Simulation (Backend Record Surroundings Unsteady World)

theorem Duration.seconds_le_of_le_horizon {d : Duration} (short : d ≤ horizon) : d.seconds ≤ 9000000000000000 := by
  simp only [horizon, le_def, ofSeconds, nanos_ofNanos, maxNanos, seconds] at short ⊢
  omega

namespace Cache

/-- Whether a request leaves alone what is under a key: it reads it, or
names other keys. -/
def Request.Keeps (key : String) : Request → Prop
  | get _ | ttl _ => True
  | r => key ∉ r.keys

theorem Request.IsLook.keeps {key : String} (plain : ¬Key.IsLock key) {r : Request} (looks : r.IsLook) :
    r.Keeps key := by
  have other : ∀ cacheKey, key ∉ [Key.lock cacheKey] := fun cacheKey named =>
    plain (List.mem_singleton.1 named ▸ Key.isLock_lock cacheKey)
  cases r with
  | get at_ => trivial
  | acquire | release | isHeld => exact other _
  | _ => cases looks

/-- Answered or not, a request leaves alone what it keeps. -/
theorem MemoryStore.live?_serve_of_keeps {s : MemoryStore} {now : Instant} {key : String} (token : String)
    {r : Request} (keeps : r.Keeps key) : (s.serve now token r).2.live? now key = s.live? now key := by
  cases r with
  | get at_ => exact s.live?_dropExpired at_
  | ttl at_ => rfl
  | _ => exact live?_serve token keeps

end Cache

def Effect.Looks : Effect → Prop
  | cache r => r.IsLook
  | database _ => False
  | _ => True

theorem Cache.Manager.customs_looks (m : Manager) : m.Customs (fun _ => True) Effect.Looks where
  quiet e quiet _ := by
    cases e with
    | cache | database => cases quiet
    | _ => trivial
  wait _ _ _ := trivial
  get _ := trivial
  isHeld _ := trivial
  acquire _ := trivial
  release _ := trivial

namespace Cache.Use

variable {α : Type} {m : Manager} {key : String} {r : Request}

/-- What an operation may ask for. One that writes asks for its own request
and for nothing else, and the others for looks and locks. -/
def MayAsk (m : Manager) : Use α → Effect → Prop
  | get _, e | getOrLock _, e | acquireLock _, e | release _, e => e.Looks
  | store item, e => e = .cache (.set (m.entry item))
  | storeMany items, e => e = .cache (.setMany (items.map m.entry))
  | storeAbsent key, e => e = .cache (.set (m.entry ⟨key, nilBytes, m.policy.nilTtl⟩))
  | delete keys, e => e = .cache (.delete keys)
  | increment key, e => e = .cache (.increment key)
  | expire key ttl, e => e = .cache (.expire key ttl)
  | lifetime key, e => e = .cache (.ttl key)

theorem asks (m : Manager) (use : Use α) : (use.perform m).Minds (fun _ => True) (use.MayAsk m) := by
  have looks := m.customs_looks
  cases use with
  | get key => exact Manager.minds_get looks key
  | getOrLock key => exact Manager.minds_getOrLock looks key
  | acquireLock key =>
    rw [perform, Manager.acquireLock]
    split
    · exact .done _
    · exact .ask trivial fun _ => .done _
  | release lock => exact Manager.minds_release looks lock
  | store item => exact Manager.minds_store fun _ => rfl
  | storeMany items => exact Manager.minds_storeMany fun _ => rfl
  | storeAbsent key => exact Manager.minds_store fun _ => rfl
  | delete keys => exact Manager.minds_delete rfl
  | increment key => exact Manager.minds_increment rfl
  | expire key ttl => exact Manager.minds_expire fun _ => rfl
  | lifetime key => exact Manager.minds_lifetime rfl

def Touches (key : String) : Use α → Prop
  | get _ | getOrLock _ | acquireLock _ | release _ | lifetime _ => False
  | use => key ∈ use.keys

instance (key : String) : (use : Use α) → Decidable (use.Touches key)
  | get _ | getOrLock _ | acquireLock _ | release _ | lifetime _ => inferInstanceAs (Decidable False)
  | store _ | storeMany _ | storeAbsent _ | delete _ | increment _ | expire _ _ =>
    inferInstanceAs (Decidable (key ∈ _))

/-- What does not touch a key leaves alone what is under it. -/
theorem keeps_of_mayAsk {use : Use α} (plain : ¬Key.IsLock key) (apart : ¬use.Touches key)
    (may : use.MayAsk m (.cache r)) : r.Keeps key := by
  cases use with
  | get | getOrLock | acquireLock | release => exact Request.IsLook.keeps plain may
  | lifetime =>
    cases may
    trivial
  | storeMany items =>
    cases may
    have away : key ∉ (items.map m.entry).map (·.key) := by
      rw [List.map_map]
      exact apart
    exact away
  | _ =>
    cases may
    exact apart

/-- Items live as long as they are to, or else as long as the
policy says. -/
theorem seconds_le {item : Item} (usual : m.policy.defaultTtl ≤ horizon) (own : item.ttl ≤ horizon) :
    m.seconds item ≤ 9000000000000000 := by
  rw [Manager.seconds]
  split
  · exact Duration.seconds_le_of_le_horizon usual
  · exact Duration.seconds_le_of_le_horizon own

/-- Only who looks may ask for a lifetime beyond the horizon:
that of a lock. -/
theorem bounded_of_mayAsk {use : Use α} (usual : m.policy.defaultTtl ≤ horizon) (none : m.policy.nilTtl ≤ horizon)
    (own : ∀ d ∈ use.lifetimes, d ≤ horizon) (may : use.MayAsk m (.cache r)) : r.IsLook ∨ r.Bounded := by
  cases use with
  | get | getOrLock | acquireLock | release => exact .inl may
  | store item =>
    cases may
    exact .inr (seconds_le usual (own _ (List.mem_singleton_self _)))
  | storeMany items =>
    cases may
    refine .inr (List.forall_mem_map.2 fun item member => ?_)
    exact seconds_le usual (own _ (List.mem_map_of_mem member))
  | storeAbsent key =>
    cases may
    exact .inr (seconds_le usual none)
  | expire key ttl =>
    cases may
    exact .inr (own ttl (List.mem_singleton_self _))
  | delete | increment | lifetime =>
    cases may
    exact .inr trivial

end Cache.Use

namespace Simulation

theorem World.Reliable.cached?_of_keeps {w : World} (reliable : w.Reliable) {r : Cache.Request} {key : String}
    (keeps : r.Keeps key) : (w.serveCache r).2.cached? key = w.cached? key := by
  obtain ⟨⟨values, locks, memory⟩, faultless⟩ := reliable
  rw [serveCache, faultless r, memory]
  cases locks with
  | none =>
    simp only [Backend.serve, cached?, memory]
    exact MemoryStore.live?_serve_of_keeps _ keeps
  | some locks =>
    simp only [Backend.serve]
    split
    · rw [cached?, cached?, memory]
      rfl
    · simp only [cached?, memory]
      exact MemoryStore.live?_serve_of_keeps _ keeps

variable {ι α : Type} [DecidableEq ι] {around : Surroundings} {world w : World} {clients ps : ι → Action α}
  {log : List (Record ι)}

/-- Clients ask for nothing but what they may, unless they have
broken off. -/
theorem Unsteady.asks {kinds : ι → Effect → Prop} (minds : ∀ i, (clients i).Minds (fun _ => True) (kinds i))
    (run : Unsteady around world clients log w ps) :
    (∀ i, (ps i).Minds (fun _ => True) (kinds i) ∨ ps i = Action.overflow) ∧ ∀ x ∈ log, kinds x.client x.effect := by
  induction run with
  | start => exact ⟨fun i => .inl (minds i), List.forall_mem_nil _⟩
  | wait _ _ ih => exact ih
  | @step log w ps e next answer w' i _ requests _ ih =>
    obtain ⟨here, said⟩ := ih
    rcases here i with may | broken
    · rw [requests] at may
      exact ⟨(Function.forall_update_iff ps fun j p => p.Minds (fun _ => True) (kinds j) ∨ p = Action.overflow).2
        ⟨.inl (may.2 answer trivial), fun j _ => here j⟩, List.forall_mem_cons.2 ⟨may.1, said⟩⟩
    · rw [requests] at broken
      cases broken
      exact answer.elim
  | @crash log w ps r next i number _ _ _ ih =>
    exact ⟨(Function.forall_update_iff ps fun j p => p.Minds (fun _ => True) (kinds j) ∨ p = Action.overflow).2
      ⟨.inr rfl, fun j _ => ih.1 j⟩, ih.2⟩

/-- What a step brings about, and time, the steps after it and the end of
a client preserve, is true from then on. Some of the clients may break
off meanwhile. -/
theorem Unsteady.onward {kinds : ι → Effect → Prop} (minds : ∀ i, (clients i).Minds (fun _ => True) (kinds i))
    (start : world.Reliable) (run : Unsteady around world clients log w ps) (roomy : w.clock.Roomy)
    {later earlier : List (Record ι)} {x : Record ι} (told : log = later ++ x :: earlier) (inv : World → Prop)
    (begins : ∀ {v v' : World}, v.Reliable → v.clock.Roomy → x.moment = v.clock →
      v.Meets around x.effect x.answer v' → inv v')
    (waits : ∀ {v : World} t, inv v → inv (v.advanceTo t))
    (steps : ∀ {v v' y}, y ∈ later → v.Reliable → inv v → v.Meets around y.effect y.answer v' → inv v')
    (crashes : ∀ {v : World} {r i} number, kinds i (.cache r) → v.Reliable → v.clock.Roomy →
      ((v.numbered number).serveCache r).1 = none → inv v → inv ((v.numbered number).serveCache r).2) : inv w := by
  induction run generalizing later with
  | start => simp at told
  | wait t _ ih => exact waits t (ih (roomy.of_le (Instant.le_max_left ..)) told steps)
  | @step log w ps e next answer w' i before _ meets ih =>
    rw [meets.clock_eq] at roomy
    have steady := before.reliable start
    cases later with
    | nil =>
      obtain ⟨rfl, rfl⟩ := List.cons.inj told
      exact begins steady roomy rfl meets
    | cons y later =>
      obtain ⟨rfl, rest⟩ := List.cons.inj (told.trans (List.cons_append ..))
      have holds := ih roomy rest fun member => steps (List.mem_cons_of_mem _ member)
      exact steps (List.mem_cons_self ..) steady holds meets
  | @crash log w ps r next i number before requests broke ih =>
    have same : ((w.numbered number).serveCache r).2.clock = w.clock := World.clock_serveCache ..
    rw [same] at roomy
    have asked : kinds i (.cache r) := by
      rcases (before.asks minds).1 i with may | broken
      · rw [requests] at may
        exact may.1
      · rw [requests] at broken
        cases broken
    exact crashes number asked (before.reliable start) roomy broke (ih roomy told steps)

end Simulation

end AccountCache
