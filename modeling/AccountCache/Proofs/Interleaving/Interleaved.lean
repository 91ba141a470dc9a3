import AccountCache.Proofs.Interleaving.Discipline
import AccountCache.Simulation.World
import Mathlib.Logic.Function.Basic

namespace AccountCache

def Effect.IsQuiet : Effect → Prop
  | cache _ | database _ => False
  | _ => True

namespace Simulation

/-- What may answer a request at the present moment, and the world
afterwards. A sleeper goes on at any moment from the one it waits for, and a
draw yields anything within its bounds. -/
inductive World.Answers (w : World) : (e : Effect) → e.Answer → World → Prop
  | cache {r answer} : (w.serveCache r).1 = some answer → w.Answers (.cache r) answer (w.serveCache r).2
  | database (r) : w.Answers (.database r) (w.serveDatabase (w.databaseFault r) r).1
      (w.serveDatabase (w.databaseFault r) r).2
  | clock (last) : w.Answers (.clock last) ⟨max last w.clock, Instant.le_max_left ..⟩ w
  | wallClock : w.Answers .wallClock w.wallClock w
  | draw {low high} (drawn) : w.Answers (.draw low high) drawn w
  | sleep {wake} (order : wake ≤ w.clock) : w.Answers (.sleep wake) ⟨w.clock, order⟩ w
  | warn (message) : w.Answers (.warn message) () w

theorem World.Answers.eq_of_isQuiet {w w' : World} {e : Effect} {answer : e.Answer}
    (answers : w.Answers e answer w') (quiet : e.IsQuiet) : w' = w := by
  cases answers with
  | cache _ => cases quiet
  | database _ => cases quiet
  | _ => rfl

structure Event (ι : Type) where
  client : ι
  effect : Effect
  answer : effect.Answer

variable {ι α σ : Type} [DecidableEq ι]

/-- What clients can come to from a start, and what they did on the way, the
latest first. Only such time passes as is allowed. -/
inductive Interleaved (mayPass : World → Instant → Prop) (world : World) (clients : ι → Action α) :
    List (Event ι) → World → (ι → Action α) → Prop
  | start : Interleaved mayPass world clients [] world clients
  | wait {trace w ps later} :
      Interleaved mayPass world clients trace w ps → mayPass w later →
      Interleaved mayPass world clients trace (w.advanceTo later) ps
  | step {trace w ps e next answer w'} (i : ι) :
      Interleaved mayPass world clients trace w ps → ps i = .ask e next → w.Answers e answer w' →
      Interleaved mayPass world clients (⟨i, e, answer⟩ :: trace) w' (Function.update ps i (next answer))

/-- The same, with the moment at which each thing was done. -/
inductive Timed (mayPass : World → Instant → Prop) (world : World) (clients : ι → Action α) :
    List (Instant × Event ι) → World → (ι → Action α) → Prop
  | start : Timed mayPass world clients [] world clients
  | wait {log w ps later} :
      Timed mayPass world clients log w ps → mayPass w later →
      Timed mayPass world clients log (w.advanceTo later) ps
  | step {log w ps e next answer w'} (i : ι) :
      Timed mayPass world clients log w ps → ps i = .ask e next → w.Answers e answer w' →
      Timed mayPass world clients ((w.clock, ⟨i, e, answer⟩) :: log) w' (Function.update ps i (next answer))

variable {mayPass : World → Instant → Prop} {world w w' : World} {clients ps : ι → Action α}
  {trace : List (Event ι)} {log : List (Instant × Event ι)}

theorem interleaved_iff_timed : Interleaved mayPass world clients trace w ps ↔
    ∃ log, log.map Prod.snd = trace ∧ Timed mayPass world clients log w ps := by
  refine ⟨fun run => ?_, ?_⟩
  · induction run with
    | start => exact ⟨[], rfl, .start⟩
    | wait _ allowed ih =>
      obtain ⟨log, same, timed⟩ := ih
      exact ⟨log, same, timed.wait allowed⟩
    | step i _ asks answers ih =>
      obtain ⟨log, rfl, timed⟩ := ih
      exact ⟨_, rfl, timed.step i asks answers⟩
  · rintro ⟨log, rfl, timed⟩
    induction timed with
    | start => exact .start
    | wait _ allowed ih => exact ih.wait allowed
    | step i _ asks answers ih => exact ih.step i asks answers

theorem Interleaved.call {r : Cache.Request} {next : (Effect.cache r).Answer → Action α}
    (run : Interleaved mayPass world clients trace w ps) (i : ι) (asks : ps i = .ask (.cache r) next)
    (answer : (Effect.cache r).Answer) (answered : (w.serveCache r).1 = some answer) :
    Interleaved mayPass world clients (⟨i, .cache r, answer⟩ :: trace) (w.serveCache r).2
      (Function.update ps i (next answer)) :=
  run.step i asks (.cache answered)

/-- Clients who keep to rules stand somewhere at all times, and what their
moves and the passing of time preserve is true of it. -/
theorem Timed.invariant {ends : ι → σ → α → Prop} (run : Timed mayPass world clients log w ps)
    (inv : List (Instant × Event ι) → World → (ι → σ) → Prop) (moves : ι → Discipline effects σ) (places : ι → σ)
    (first : inv [] world places)
    (conform : ∀ i, (clients i).Conforms (moves i) (ends i) (places i))
    (wait : ∀ {log w places later}, inv log w places → mayPass w later → inv log (w.advanceTo later) places)
    (step : ∀ {log w places i e answer w' s}, inv log w places → w.Answers e answer w' →
      moves i (places i) e answer s → inv ((w.clock, ⟨i, e, answer⟩) :: log) w' (Function.update places i s)) :
    ∃ places, inv log w places ∧ ∀ i, (ps i).Conforms (moves i) (ends i) (places i) := by
  induction run with
  | start => exact ⟨places, first, conform⟩
  | wait _ allowed ih =>
    obtain ⟨places, holds, conform⟩ := ih
    exact ⟨places, wait holds allowed, conform⟩
  | @step log w ps e next answer w' i _ asks answers ih =>
    obtain ⟨places, holds, conform⟩ := ih
    have here := conform i
    rw [asks] at here
    obtain ⟨s, move, rest⟩ := here answer
    refine ⟨Function.update places i s, step holds answers move, fun j => ?_⟩
    by_cases same : j = i
    · subst same
      rw [Function.update_self, Function.update_self]
      exact rest
    · rw [Function.update_of_ne same, Function.update_of_ne same]
      exact conform j

/-- The same for what does not depend on when things were done, which is
most of what is said about clients. -/
theorem Interleaved.invariant {ends : ι → σ → α → Prop} (run : Interleaved mayPass world clients trace w ps)
    (inv : List (Event ι) → World → (ι → σ) → Prop) (moves : ι → Discipline effects σ) (places : ι → σ)
    (first : inv [] world places)
    (conform : ∀ i, (clients i).Conforms (moves i) (ends i) (places i))
    (wait : ∀ {trace w places later}, inv trace w places → mayPass w later →
      inv trace (w.advanceTo later) places)
    (step : ∀ {trace w places i e answer w' s}, inv trace w places → w.Answers e answer w' →
      moves i (places i) e answer s → inv (⟨i, e, answer⟩ :: trace) w' (Function.update places i s)) :
    ∃ places, inv trace w places ∧ ∀ i, (ps i).Conforms (moves i) (ends i) (places i) := by
  obtain ⟨log, rfl, timed⟩ := interleaved_iff_timed.1 run
  exact timed.invariant (fun log => inv (log.map Prod.snd)) moves places first conform wait step

end Simulation

end AccountCache
