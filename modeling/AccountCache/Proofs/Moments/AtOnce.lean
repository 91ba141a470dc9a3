import AccountCache.Accounts.CacheAside
import AccountCache.Proofs.Sequential.Calm

namespace AccountCache

namespace Simulation.World

variable {w w' : World} {α β : Type}

/-- What answers an effect at the present moment, and the world afterwards.
There is no answer if the clock cannot represent a moment, or if time has to
pass before. -/
def answer? (w : World) : (e : Effect) → Option (e.Answer × World)
  | .cache r => (w.serveCache r).1.map fun answer => (answer, (w.serveCache r).2)
  | .database r => some (w.serveDatabase (w.databaseFault r) r)
  | .sleep wake => if awake : wake ≤ w.clock then some (⟨w.clock, awake⟩, w) else none
  | e => (w.answer none e).1.map fun answer => (answer, (w.answer none e).2)

/-- What an action ends with that takes no time, and the world afterwards.
It does one thing after the other, all of them at the present moment. -/
def run? : World → Action α → Option (α × World)
  | w, .done value => some (value, w)
  | w, .ask e next => (w.answer? e).bind fun (answer, w') => w'.run? (next answer)

theorem Answers.of_answer? {e : Effect} {answer : e.Answer} (answered : w.answer? e = some (answer, w')) :
    w.Answers e answer w' := by
  cases e with
  | cache r =>
    obtain ⟨_, served, ⟨⟩⟩ := Option.map_eq_some_iff.1 answered
    exact .cache served
  | database r =>
    have same : w.serveDatabase (w.databaseFault r) r = (answer, w') := Option.some.inj answered
    have answers := Answers.database (w := w) r
    rwa [same] at answers
  | sleep wake =>
    rw [answer?] at answered
    split at answered
    · cases answered
      exact .sleep _
    · cases answered
  | clock last =>
    cases answered
    exact .clock last
  | wallClock =>
    cases answered
    exact .wallClock
  | draw low high =>
    cases answered
    exact .draw _
  | warn message =>
    cases answered
    exact .warn message
  | overflow => exact answer.elim

theorem Answers.answer?_eq {r : Cache.Request} {answer : (Effect.cache r).Answer}
    (answers : w.Answers (.cache r) answer w') : w.answer? (.cache r) = some (answer, w') := by
  cases answers with
  | cache served => exact Option.map_eq_some_iff.2 ⟨answer, served, rfl⟩

/-- A request of a cache is answered at once if every lifetime that it gives
ends at a moment of the clock. -/
theorem Reliable.exists_answer? (reliable : w.Reliable) {r : Cache.Request}
    (ends : ∀ d ∈ r.lifetimes, ∃ deadline, w.clock.add? d = some deadline) :
    ∃ answer w', w.answer? (.cache r) = some (answer, w') ∧ w.Answers (.cache r) answer w' := by
  obtain ⟨answer, w', answers⟩ := reliable.exists_answer ends
  exact ⟨answer, w', answers.answer?_eq, answers⟩

theorem run?_ask {e : Effect} {next : e.Answer → Action α} {answer : e.Answer}
    (answered : w.answer? e = some (answer, w')) : w.run? (.ask e next) = w'.run? (next answer) := by
  rw [run?, answered, Option.bind_some]

theorem run?_bind (p : Action α) (f : α → Action β) :
    w.run? (p.bind f) = (w.run? p).bind fun (value, w') => w'.run? (f value) := by
  induction p generalizing w with
  | done value => rfl
  | ask e next ih =>
    simp only [Program.bind_ask, run?, Option.bind_assoc]
    exact congrArg _ (funext fun (answer, w') => ih answer)

theorem run?_then {p : Action α} {f : α → Action β} {value : α} (first : w.run? p = some (value, w')) :
    w.run? (p.bind f) = w'.run? (f value) := by
  rw [run?_bind, first, Option.bind_some]

theorem run?_andThen {p : Accounts.Operation α} {f : α → Accounts.Operation β} {value : α}
    (first : w.run? p.run = some (.ok value, w')) : w.run? (p >>= f).run = w'.run? (f value).run :=
  run?_then (f := ExceptT.bindCont f) first

theorem run?_of_error {p : Accounts.Operation α} (f : α → Accounts.Operation β) {e : Accounts.Error}
    (first : w.run? p.run = some (.error e, w')) : w.run? (p >>= f).run = some (.error e, w') :=
  run?_then (f := ExceptT.bindCont f) first

theorem run?_liftThen {p : Action α} {f : α → Accounts.Operation β} {value : α} (first : w.run? p = some (value, w')) :
    w.run? (ExceptT.lift p >>= f).run = w'.run? (f value).run := by
  rw [ExceptT.run_bind_lift]
  exact run?_then first

theorem run?_cache {p : Action (Except Cache.Error α)} {result : Except Cache.Error α}
    (first : w.run? p = some (result, w')) :
    w.run? (Accounts.Operation.cache p).run = some (result.mapError Accounts.Error.cache, w') :=
  run?_then first

/-- What takes no time leaves the clock as it is. -/
theorem clock_eq_of_run? {p : Action α} {value : α} (ran : w.run? p = some (value, w')) : w'.clock = w.clock := by
  induction p generalizing w with
  | done => cases ran; rfl
  | ask e next ih =>
    obtain ⟨⟨answer, v⟩, answered, rest⟩ := Option.bind_eq_some_iff.1 ran
    exact (ih answer rest).trans (Answers.of_answer? answered).clock_eq.1

end Simulation.World

end AccountCache
