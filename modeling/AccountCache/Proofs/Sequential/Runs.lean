import AccountCache.Accounts.CacheAside
import AccountCache.Proofs.Interleaving.Backend
import AccountCache.Proofs.Sequential.Contract

namespace AccountCache

namespace Simulation

/-- What is taken for granted of the surroundings. Statements that need none
of it leave it open, and hold whatever it is. -/
structure Circumstances where
  /-- Whether the clock stays far from its end. -/
  bounded : Prop
  /-- Which requests the database may refuse or fail to answer. -/
  fails : Database.Request → Prop
  /-- Whether the database keeps emails apart. -/
  unique : Prop

variable {c : Circumstances} {w w' : World} {α β : Type}

/-- What may answer a request at the present moment, and the world
afterwards. The wall clock may show anything. -/
inductive World.Serves (c : Circumstances) (w : World) : (e : Effect) → e.Answer → World → Prop
  | database {r answer tables} : w.tables.Permits r answer tables → ((∃ e, answer = .error e) → c.fails r) →
    (c.unique → tables.Unique) → w.Serves c (.database r) answer { w with tables }
  | wallClock (now) : w.Serves c .wallClock now w
  | other {e answer w'} : (∀ r, e ≠ .database r) → w.Answers e answer w' → w.Serves c e answer w'

def World.Next (c : Circumstances) (w : World) (e : Effect) (answer : e.Answer) (w' : World) : Prop :=
  ∃ later : Instant, (c.bounded → later.Roomy) ∧ (w.advanceTo later).Serves c e answer w'

/-- What an action may end with, and in which world, when it is run on its
own. Time passes before each request as it likes. -/
inductive Runs (c : Circumstances) : Action α → World → α → World → Prop
  | done {value w} : Runs c (.done value) w value w
  | ask {e next answer w w' value w''} : w.Next c e answer w' → Runs c (next answer) w' value w'' →
    Runs c (.ask e next) w value w''

theorem World.advanceTo_clock (w : World) : w.advanceTo w.clock = w := by
  have now : max w.clock w.clock = w.clock := if_pos (Instant.le_refl w.clock)
  rw [World.advanceTo, now]

section

variable {value : α} (roomy : c.bounded → w.clock.Roomy)
include roomy

theorem Runs.call {r : Cache.Request} {answer : (Effect.cache r).Answer} {next : (Effect.cache r).Answer → Action α}
    (answered : (w.serveCache r).1 = some answer) (rest : Runs c (next answer) (w.serveCache r).2 value w') :
    Runs c (.ask (.cache r) next) w value w' := by
  refine .ask ⟨w.clock, roomy, ?_⟩ rest
  rw [w.advanceTo_clock]
  exact .other (fun _ => nofun) (.cache answered)

theorem Runs.query {r : Database.Request} {answer : r.Result} {next : (Effect.database r).Answer → Action α}
    {tables : Database.Tables} (permits : w.tables.Permits r (.ok answer) tables)
    (unique : c.unique → tables.Unique) (rest : Runs c (next (.ok answer)) { w with tables } value w') :
    Runs c (.ask (.database r) next) w value w' := by
  refine .ask ⟨w.clock, roomy, ?_⟩ rest
  rw [w.advanceTo_clock]
  exact .database permits nofun unique

theorem Runs.load {r : Database.Request} {answer : r.Result} {next : (Effect.database r).Answer → Action α}
    (permits : w.tables.Permits r (.ok answer) w.tables) (unique : c.unique → w.tables.Unique)
    (rest : Runs c (next (.ok answer)) w value w') : Runs c (.ask (.database r) next) w value w' :=
  .query roomy permits unique rest

theorem Runs.wallClock {next : Timestamp → Action α} (now : Timestamp) (rest : Runs c (next now) w value w') :
    Runs c (.ask .wallClock next) w value w' := by
  refine .ask ⟨w.clock, roomy, ?_⟩ rest
  rw [w.advanceTo_clock]
  exact .wallClock now

end

namespace Runs

variable {w'' : World} {value : α} {value' : β} {p : Action α}

theorem eq_of_done {end_ : α} (runs : Runs c (.done end_) w value w') : value = end_ ∧ w' = w := by
  cases runs
  exact ⟨rfl, rfl⟩

theorem bind {f : α → Action β} (first : Runs c p w value w') (rest : Runs c (f value) w' value' w'') :
    Runs c (p.bind f) w value' w'' := by
  induction first with
  | done => exact rest
  | ask next _ ih => exact .ask next (ih rest)

theorem andThen {p : Accounts.Operation α} {f : α → Accounts.Operation β} {outcome : Except Accounts.Error β}
    (first : Runs c p.run w (.ok value) w') (rest : Runs c (f value).run w' outcome w'') :
    Runs c (p >>= f).run w outcome w'' :=
  first.bind (f := ExceptT.bindCont f) rest

/-- What happens in some circumstances happens in any that grant less. -/
theorem mono {c' : Circumstances} (runs : Runs c p w value w') (bounded : c'.bounded → c.bounded)
    (fails : ∀ r, c.fails r → c'.fails r) (unique : c'.unique → c.unique) : Runs c' p w value w' := by
  induction runs with
  | done => exact .done
  | ask next _ ih =>
    obtain ⟨later, roomy, serves⟩ := next
    refine .ask ⟨later, fun far => roomy (bounded far), ?_⟩ ih
    cases serves with
    | database permits failed apart =>
      exact .database permits (fun error => fails _ (failed error)) fun keeps => apart (unique keeps)
    | wallClock now => exact .wallClock now
    | other differ answers => exact .other differ answers

end Runs

/-- Whether an action that starts in a world ends as it should, whatever the
answers are. If the clock stays far from its end, none of its requests
remains without an answer, so that it does end. -/
def Ensures (c : Circumstances) : Action α → World → (α → World → Prop) → Prop
  | .done value, w, post => post value w
  | .ask e next, w, post => (c.bounded → ∃ answer w', w.Next c e answer w') ∧
    ∀ answer w', w.Next c e answer w' → Ensures c (next answer) w' post

namespace Ensures

variable {p : Action α} {post : α → World → Prop}

theorem of_runs {value : α} (ensures : Ensures c p w post) (runs : Runs c p w value w') : post value w' := by
  induction runs with
  | done => exact ensures
  | ask next _ ih => exact ih (ensures.2 _ _ next)

theorem exists_runs (ensures : Ensures c p w post) (bounded : c.bounded) : ∃ value w', Runs c p w value w' := by
  induction p generalizing w with
  | done value => exact ⟨value, w, .done⟩
  | ask e next ih =>
    obtain ⟨able, rest⟩ := ensures
    obtain ⟨answer, w', step⟩ := able bounded
    obtain ⟨value, w'', runs⟩ := ih answer (rest answer w' step)
    exact ⟨value, w'', .ask step runs⟩

theorem mono {post' : α → World → Prop} (ensures : Ensures c p w post)
    (weaker : ∀ value w', post value w' → post' value w') : Ensures c p w post' := by
  induction p generalizing w with
  | done value => exact weaker value w ensures
  | ask e next ih => exact ⟨ensures.1, fun answer w' step => ih answer (ensures.2 answer w' step)⟩

theorem bind {f : α → Action β} {post' : β → World → Prop} (first : Ensures c p w post)
    (rest : ∀ value w', post value w' → Ensures c (f value) w' post') : Ensures c (p.bind f) w post' := by
  induction p generalizing w with
  | done value => exact rest value w first
  | ask e next ih => exact ⟨first.1, fun answer w' step => ih answer (first.2 answer w' step)⟩

theorem andThen {p : Accounts.Operation α} {f : α → Accounts.Operation β}
    {post : Except Accounts.Error α → World → Prop} {post' : Except Accounts.Error β → World → Prop}
    (first : Ensures c p.run w post) (rest : ∀ value w', post (.ok value) w' → Ensures c (f value).run w' post')
    (fails : ∀ e w', post (.error e) w' → post' (.error e) w') : Ensures c (p >>= f).run w post' := by
  refine first.bind (f := ExceptT.bindCont f) fun outcome w' holds => ?_
  cases outcome with
  | ok value => exact rest value w' holds
  | error e => exact fails e w' holds

theorem lift (ensures : Ensures c p w post) :
    Ensures c (ExceptT.lift p : Accounts.Operation α).run w fun outcome w' =>
      ∃ value, outcome = .ok value ∧ post value w' :=
  ensures.bind fun value _ holds => ⟨value, rfl, holds⟩

theorem cache {p : Action (Except Cache.Error α)} {post : Except Cache.Error α → World → Prop}
    (ensures : Ensures c p w post) : Ensures c (Accounts.Operation.cache p).run w fun outcome w' =>
      ∃ result, outcome = result.mapError Accounts.Error.cache ∧ post result w' :=
  ensures.bind fun result _ holds => ⟨result, rfl, holds⟩

/-- An action within an operation. -/
theorem liftThen {f : α → Accounts.Operation β} {post' : Except Accounts.Error β → World → Prop}
    (first : Ensures c p w post) (rest : ∀ value w', post value w' → Ensures c (f value).run w' post') :
    Ensures c (ExceptT.lift p >>= f).run w post' := by
  refine first.lift.andThen ?_ ?_
  · rintro value w' ⟨_, ⟨⟩, holds⟩
    exact rest value w' holds
  · rintro e w' ⟨_, ⟨⟩, _⟩

end Ensures

end Simulation

end AccountCache
