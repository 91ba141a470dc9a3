import AccountCache.Proofs.Faults.Course
import AccountCache.Proofs.Interleaving.Interleaved

namespace AccountCache

open Program (Course)

namespace Simulation

/-- What may happen beside what the clients do: the cache may refuse some
requests, the database may be any, locks get any tokens, and the time of day
may be set as it likes. -/
structure Surroundings where
  /-- Whether the database may give an answer, and go from one state
  to another. -/
  database : Database.Tables → (r : Database.Request) → Except Database.Error r.Result → Database.Tables → Prop
  /-- Whether the cache may refuse a request. -/
  refuses : Cache.Request → Prop

namespace World

def numbered (w : World) (number : Nat) : World := { w with tokenCount := number }

/-- What may answer a request, and the world afterwards. -/
inductive Meets (around : Surroundings) (w : World) : (e : Effect) → e.Answer → World → Prop
  | cache {r answer w'} (number : Nat) : (w.numbered number).Answers (.cache r) answer w' →
    Meets around w (.cache r) answer w'
  | refused {r} (e : Cache.Error) : around.refuses r → Meets around w (.cache r) (.error e) w
  | database {r answer tables} : around.database w.tables r answer tables →
    Meets around w (.database r) answer { w with tables }
  | wallClock (now : Timestamp) : Meets around w .wallClock now w
  | quiet {e answer} : e.IsQuiet → w.Answers e answer w → Meets around w e answer w

theorem Meets.of_serve {around : Surroundings} {w : World} {r : Cache.Request} (number : Nat)
    (answer : Except Cache.Error r.Result) (served : ((w.numbered number).serveCache r).1 = some answer) :
    w.Meets around (.cache r) answer ((w.numbered number).serveCache r).2 :=
  .cache number (.cache served)

end World

/-- What a client did, at which moment, and the tables before and
afterwards. -/
structure Record (ι : Type) extends Event ι where
  moment : Instant
  before : Database.Tables
  after : Database.Tables

variable {ι α σ : Type} [DecidableEq ι]

/-- What clients can come to from a start, and what they did on the way, the
latest first. A request for which the clock cannot represent a deadline is
the end of its client. -/
inductive Unsteady (around : Surroundings) (world : World) (clients : ι → Action α) :
    List (Record ι) → World → (ι → Action α) → Prop
  | start : Unsteady around world clients [] world clients
  | wait {log w ps} (later : Instant) :
      Unsteady around world clients log w ps → Unsteady around world clients log (w.advanceTo later) ps
  | step {log w ps e next answer w'} (i : ι) :
      Unsteady around world clients log w ps → ps i = .ask e next → w.Meets around e answer w' →
      Unsteady around world clients (⟨⟨i, e, answer⟩, w.clock, w.tables, w'.tables⟩ :: log) w'
        (Function.update ps i (next answer))
  | crash {log w ps r next} (i : ι) (number : Nat) :
      Unsteady around world clients log w ps → ps i = .ask (.cache r) next →
      ((w.numbered number).serveCache r).1 = none →
      Unsteady around world clients log ((w.numbered number).serveCache r).2
        (Function.update ps i Action.overflow)

def heard (i : ι) (log : List (Record ι)) : List (Exchange effects) := exchanges i (log.map Record.toEvent)

variable {around : Surroundings} {world w w' : World} {clients ps : ι → Action α} {log : List (Record ι)}

theorem heard_cons (i : ι) (x : Record ι) (log : List (Record ι)) :
    heard i (x :: log) = if x.client = i then heard i log ++ [⟨x.effect, x.answer⟩] else heard i log :=
  exchanges_cons i x.toEvent (log.map Record.toEvent)

theorem exists_of_mem_heard {i : ι} {x : Exchange effects} (member : x ∈ heard i log) :
    ∃ y ∈ log, y.client = i ∧ x = ⟨y.effect, y.answer⟩ := by
  obtain ⟨event, told, rfl⟩ := List.mem_map.1 member
  obtain ⟨told, own⟩ := List.mem_filter.1 (List.mem_reverse.1 told)
  obtain ⟨y, written, rfl⟩ := List.mem_map.1 told
  exact ⟨y, written, of_decide_eq_true own, rfl⟩

theorem mem_heard {x : Record ι} (member : x ∈ log) :
    (⟨x.effect, x.answer⟩ : Exchange effects) ∈ heard x.client log := by
  have told : x.toEvent ∈ (log.map Record.toEvent).filter (·.client = x.client) :=
    List.mem_filter.2 ⟨List.mem_map_of_mem member, decide_eq_true rfl⟩
  exact List.mem_map.2 ⟨x.toEvent, List.mem_reverse.2 told, rfl⟩

/-- In whatever surroundings a client takes one of its courses, unless it
comes to an end on the way. -/
theorem Unsteady.course (run : Unsteady around world clients log w ps) (i : ι) :
    (clients i).Course (heard i log) (ps i) ∨ ps i = Action.overflow := by
  induction run with
  | start => exact .inl .stay
  | wait _ _ ih => exact ih
  | @step log w ps e next answer w' j _ asks meets ih =>
    rw [heard_cons]
    by_cases own : j = i
    · subst own
      rw [if_pos rfl, Function.update_self]
      rcases ih with course | broken
      · rw [asks] at course
        exact .inl (course.snoc answer)
      · rw [asks] at broken
        cases broken
        exact answer.elim
    · rw [if_neg own, Function.update_of_ne (Ne.symm own)]
      exact ih
  | @crash log w ps r next j number _ asks broke ih =>
    by_cases own : j = i
    · subst own
      exact .inr (Function.update_self ..)
    · rw [Function.update_of_ne (Ne.symm own)]
      exact ih

theorem Unsteady.course_of_done (run : Unsteady around world clients log w ps) {i : ι} {value : α}
    (ended : ps i = .done value) : (clients i).Course (heard i log) (.done value) := by
  rcases run.course i with course | broken
  · rwa [ended] at course
  · rw [ended] at broken
    cases broken

/-- Clients who keep to rules stand somewhere at all times, and what
their moves, the passing of time and the end of a client preserve is
true of it. -/
theorem Unsteady.invariant {ends : ι → σ → α → Prop} (run : Unsteady around world clients log w ps)
    (inv : List (Record ι) → World → (ι → σ) → Prop) (moves : ι → Discipline effects σ) (places : ι → σ)
    (first : inv [] world places)
    (conform : ∀ i, (clients i).Conforms (moves i) (ends i) (places i))
    (wait : ∀ {log w places} later, inv log w places → inv log (w.advanceTo later) places)
    (step : ∀ {log w places i e answer w' s}, inv log w places → w.Meets around e answer w' →
      moves i (places i) e answer s →
      inv (⟨⟨i, e, answer⟩, w.clock, w.tables, w'.tables⟩ :: log) w' (Function.update places i s))
    (crash : ∀ {log w places i r} number, inv log w places → (∀ answer, ∃ s, moves i (places i) (.cache r) answer s) →
      ((w.numbered number).serveCache r).1 = none → inv log ((w.numbered number).serveCache r).2 places) :
    ∃ places, inv log w places ∧ ∀ i, (ps i).Conforms (moves i) (ends i) (places i) := by
  induction run with
  | start => exact ⟨places, first, conform⟩
  | wait later _ ih =>
    obtain ⟨places, holds, conform⟩ := ih
    exact ⟨places, wait later holds, conform⟩
  | @step log w ps e next answer w' i _ asks meets ih =>
    obtain ⟨places, holds, conform⟩ := ih
    have here := conform i
    rw [asks] at here
    obtain ⟨s, move, rest⟩ := here answer
    refine ⟨Function.update places i s, step holds meets move, fun j => ?_⟩
    by_cases same : j = i
    · subst same
      rw [Function.update_self, Function.update_self]
      exact rest
    · rw [Function.update_of_ne same, Function.update_of_ne same]
      exact conform j
  | @crash log w ps r next i number _ asks broke ih =>
    obtain ⟨places, holds, conform⟩ := ih
    have here := conform i
    rw [asks] at here
    have may : ∀ answer, ∃ s, moves i (places i) (.cache r) answer s := fun answer =>
      have ⟨s, move, _⟩ := here answer
      ⟨s, move⟩
    refine ⟨places, crash number holds may broke, ?_⟩
    exact (Function.forall_update_iff ps fun j p => p.Conforms (moves j) (ends j) (places j)).2
      ⟨fun answer => answer.elim, fun j _ => conform j⟩

end Simulation

end AccountCache
