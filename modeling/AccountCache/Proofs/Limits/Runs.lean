import AccountCache.Proofs.Limits.Lives

namespace AccountCache

open Cache (HasCounted)

def Exchange.IsRecent : Exchange effects → Prop
  | ⟨.wallClock, now⟩ => Timestamp.IsRecent now
  | _ => True

namespace Simulation

namespace World

variable {w w' : World} {around : Surroundings}

theorem Meets.clock_eq {e : Effect} {answer : e.Answer} (meets : w.Meets around e answer w') : w'.clock = w.clock := by
  cases meets with
  | cache number answers => exact answers.clock_eq.1
  | refused | database | wallClock | quiet => rfl

theorem clock_serveCache (w : World) (r : Cache.Request) : (w.serveCache r).2.clock = w.clock := by
  rw [serveCache]
  cases w.cacheFault r with
  | some e => rfl
  | none => rfl

theorem Meets.isTimely {e : Effect} {answer : e.Answer} (meets : w.Meets around e answer w') (ample : w.clock.Ample)
    (recent : Exchange.IsRecent ⟨e, answer⟩) : Exchange.IsTimely ⟨e, answer⟩ := by
  cases e with
  | wallClock => exact recent
  | clock last =>
    rintro rfl
    cases meets with
    | quiet _ answers =>
      cases answers
      show (max Instant.start w.clock).Ample
      rwa [Instant.max_start]
  | _ => trivial

theorem Reliable.served (reliable : w.Reliable) (r : Cache.Request) : (w.serveCache r).2.Reliable := by
  obtain ⟨⟨values, locks, memory⟩, faultless⟩ := reliable
  rw [serveCache, faultless r, memory]
  cases locks with
  | none => exact ⟨⟨_, _, rfl⟩, faultless⟩
  | some locks =>
    simp only [Backend.serve]
    split
    · exact ⟨⟨_, _, rfl⟩, faultless⟩
    · exact ⟨⟨_, _, rfl⟩, faultless⟩

/-- A request has an answer whose lifetimes are within reach. -/
theorem Reliable.exists_answer_of_fits (reliable : w.Reliable) (ample : w.clock.Ample) {r : Cache.Request}
    (fits : r.Fits) : ∃ answer, (w.serveCache r).1 = some answer := by
  obtain ⟨answer, _, answers⟩ := reliable.exists_answer fun d member => ⟨_, ample.add? (fits d member)⟩
  cases answers with
  | cache answered => exact ⟨answer, answered⟩

end World

variable {ι α : Type} [DecidableEq ι]

/-- Whether no clock has shown anything out of the ordinary: the one that
never runs backwards is far from its end, and every time of day that was
told is recent. -/
def Ordinary (log : List (Record ι)) (w : World) : Prop :=
  w.clock.Ample ∧ ∀ x ∈ log, Exchange.IsRecent ⟨x.effect, x.answer⟩

omit [DecidableEq ι] in
theorem Ordinary.of_le {log : List (Record ι)} {w w' : World} (ordinary : Ordinary log w')
    (order : w.clock ≤ w'.clock) : Ordinary log w :=
  ⟨ordinary.1.of_le order, ordinary.2⟩

namespace Unsteady

variable {around : Surroundings} {world w : World} {clients ps : ι → Action α} {log : List (Record ι)}

theorem reliable (run : Unsteady around world clients log w ps) (reliable : world.Reliable) : w.Reliable := by
  induction run with
  | start => exact reliable
  | wait later _ ih => exact ih.advanceTo later
  | step i _ _ meets ih => exact ih.meets meets
  | crash i number _ _ _ ih => exact (ih.numbered number).served _

section

variable {a : Accounts} (start : world.Reliable) (minds : ∀ i, (clients i).Minds Exchange.IsTimely a.Allows)

include start minds

/-- No user of a moderate service breaks off, and all ask for what it allows
and for nothing else. -/
theorem moderate (run : Unsteady around world clients log w ps) (ordinary : Ordinary log w) :
    (∀ i, (ps i).Minds Exchange.IsTimely a.Allows) ∧ ∀ x ∈ log, a.Allows x.effect := by
  induction run with
  | start => exact ⟨minds, List.forall_mem_nil _⟩
  | wait later _ ih => exact ih (ordinary.of_le (Instant.le_max_left ..))
  | @step log w ps e next answer w' i _ asks meets ih =>
    obtain ⟨ample, recent⟩ := ordinary
    rw [meets.clock_eq] at ample
    obtain ⟨now, before⟩ := List.forall_mem_cons.1 recent
    obtain ⟨minds, allowed⟩ := ih ⟨ample, before⟩
    have here := minds i
    rw [asks] at here
    refine ⟨?_, List.forall_mem_cons.2 ⟨here.1, allowed⟩⟩
    exact (Function.forall_update_iff ps fun _ p => p.Minds Exchange.IsTimely a.Allows).2
      ⟨here.2 answer (meets.isTimely ample now), fun j _ => minds j⟩
  | @crash log w ps r next i number before asks broke ih =>
    -- Lifetimes within reach end before the clock does, so that there was an answer.
    have same : ((w.numbered number).serveCache r).2.clock = w.clock := World.clock_serveCache ..
    have earlier := ordinary.of_le (Nat.le_of_eq (congrArg Instant.nanos same.symm))
    have here := (ih earlier).1 i
    rw [asks] at here
    obtain ⟨answer, answered⟩ :=
      ((before.reliable start).numbered number).exists_answer_of_fits earlier.1 here.1.1
    rw [broke] at answered
    cases answered

/-- What a step of the run brings about, and time and the steps after it
preserve, is true from then on, in particular of the worlds in which the
later steps are taken. -/
theorem since (run : Unsteady around world clients log w ps) (ordinary : Ordinary log w)
    {later earlier : List (Record ι)} {x : Record ι} (told : log = later ++ x :: earlier) {kind : Record ι → Prop}
    (all : ∀ y ∈ later, kind y) (inv : World → Prop)
    (begins : ∀ {v qs v'}, Unsteady around world clients earlier v qs → Ordinary earlier v → x.moment = v.clock →
      v.Meets around x.effect x.answer v' → inv v')
    (waits : ∀ {v : World} t, inv v → inv (v.advanceTo t))
    (steps : ∀ {v v' y}, kind y → v.Reliable → inv v → v.Meets around y.effect y.answer v' → inv v') :
    inv w ∧ ∀ y ∈ later, ∃ v v' : World, inv v ∧ v.Reliable ∧ y.moment = v.clock ∧
      v.Meets around y.effect y.answer v' := by
  induction run generalizing later with
  | start => simp at told
  | wait t _ ih =>
    obtain ⟨now, before⟩ := ih (ordinary.of_le (Instant.le_max_left ..)) told all
    exact ⟨waits t now, before⟩
  | @step log w ps e next answer w' i run asks meets ih =>
    obtain ⟨ample, recent⟩ := ordinary
    rw [meets.clock_eq] at ample
    have earlier := (List.forall_mem_cons.1 recent).2
    cases later with
    | nil =>
      obtain ⟨rfl, rfl⟩ := List.cons.inj told
      exact ⟨begins run ⟨ample, earlier⟩ rfl meets, List.forall_mem_nil _⟩
    | cons y later =>
      obtain ⟨rfl, before⟩ := List.cons.inj (told.trans (List.cons_append ..))
      obtain ⟨own, rest⟩ := List.forall_mem_cons.1 all
      obtain ⟨now, before⟩ := ih ⟨ample, earlier⟩ before rest
      have steady := run.reliable start
      exact ⟨steps own steady now meets, List.forall_mem_cons.2 ⟨⟨w, w', now, steady, rfl, meets⟩, before⟩⟩
  | @crash log w ps r next i number run asks broke ih =>
    have broken := ((run.crash i number asks broke).moderate start minds ordinary).1 i
    rw [Function.update_self] at broken
    exact broken.1.elim

/-- An entry to which a step has given a life is there at every later
request before its end, unless it was dropped or written anew. -/
theorem lives {later earlier : List (Record ι)} {x : Record ι} {key : String} {n : Nat} {worth : Bytes → Prop}
    (counts : Cache.CountsUp worth) (run : Unsteady around world clients log w ps) (ordinary : Ordinary log w)
    (told : log = later ++ x :: earlier) (lasts : ∀ y ∈ later, ¬y.effect.Renews key)
    (begins : ∀ {v qs v'}, Unsteady around world clients earlier v qs → Ordinary earlier v →
      v.Meets around x.effect x.answer v' → n ≠ 0 → v'.Lives key (v.clock.after (.ofSeconds n)) worth) :
    ∀ y ∈ later, y.moment < x.moment.after (.ofSeconds n) → ∃ v v' : World, v.Reliable ∧ x.moment ≤ v.clock ∧
      v.Lives key (x.moment.after (.ofSeconds n)) worth ∧ v.Meets around y.effect y.answer v' := by
  -- Time may pass its end, so that the invariant says nothing of the entry from then on.
  have throughout := run.since start minds ordinary told lasts
    (fun v => x.moment ≤ v.clock ∧
      (v.clock < x.moment.after (.ofSeconds n) → v.Lives key (x.moment.after (.ofSeconds n)) worth))
    (fun {v qs v'} before earlier now meets => by
      have same := meets.clock_eq
      rw [same, now]
      refine ⟨Instant.le_refl _, fun early => begins before earlier meets ?_⟩
      rintro rfl
      exact Nat.lt_irrefl _ early)
    (fun {v} t holds => by
      have order : v.clock ≤ (v.advanceTo t).clock := Instant.le_max_left ..
      exact ⟨Instant.le_trans holds.1 order, fun early => (holds.2 (Instant.lt_of_le_of_lt order early)).wait early⟩)
    (fun {v v' y} spares steady holds meets => by
      rw [meets.clock_eq]
      exact ⟨holds.1, fun early => (holds.2 early).meets counts steady meets spares⟩)
  intro y member early
  obtain ⟨v, v', ⟨order, holds⟩, steady, now, meets⟩ := throughout.2 y member
  exact ⟨v, v', steady, order, holds (now ▸ early), meets⟩

end

end Unsteady

end Simulation

end AccountCache
