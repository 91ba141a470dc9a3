import AccountCache.Proofs.Limits.Runs

namespace AccountCache

open Cache (longest)
open Simulation (Ordinary Record Unsteady World heard)

/-- Whether an answer that tells how long a key is to live tells that
it does live. -/
def TellsLive (key : String) : (e : Effect) → e.Answer → Prop
  | .cache (.ttl at_), answer =>
    at_ = key → ∃ seconds, answer = .ok seconds ∧ (Cache.Lifetime.ofSeconds seconds).isLive = true
  | _, _ => True

namespace Accounts

variable {ι α : Type} [DecidableEq ι]

/-- Whether users of a service may come to something. They start when
nothing is cached in memory, at any moment and with any tables, and
the database may answer what it likes, but clocks show nothing out of
the ordinary. -/
def Reaches (a : Accounts) (log : List (Record ι)) (w : World) (ps : ι → Action α) : Prop :=
  (∃ database first tables clients, (∀ i, a.Uses (clients i)) ∧
    Unsteady ⟨database, fun _ => False⟩ { clock := first, backend := .shared first, tables } clients log w ps) ∧
  Ordinary log w

/-- Whether a service does what it is set to, whatever its users do side by
side: it neither breaks off nor takes a lifetime for over before it is. -/
structure Usable (a : Accounts) : Prop where
  /-- No user breaks off. -/
  lasts {ι α : Type} [DecidableEq ι] {log : List (Record ι)} {w : World} {ps : ι → Action α} :
    a.Reaches log w ps → ∀ i, ps i ≠ Action.overflow
  /-- A key that was given a lifetime that the service is set to is
  told to be live until the lifetime ends, unless it was dropped or
  given another. -/
  lives {ι α : Type} [DecidableEq ι] {later earlier : List (Record ι)} {x : Record ι} {w : World} {ps : ι → Action α}
    {key : String} {n : Nat} :
    a.Reaches (later ++ x :: earlier) w ps → n ∈ a.lifetimes → Gives key n x.effect x.answer →
    (∀ y ∈ later, ¬y.effect.Renews key) → ∀ y ∈ later, y.moment < x.moment.after (.ofSeconds n) →
    TellsLive key y.effect y.answer
  /-- Once as many failed logins have been counted as are allowed, and
  the counter has been given the time that a lock lasts, it shows that
  logins are locked until that time ends, unless it was dropped or
  given another. -/
  locks {ι α : Type} [DecidableEq ι] {asked later between earlier : List (Record ι)} {count given : Record ι}
    {w : World} {ps : ι → Action α} {address : String} {number : Int} {i : ι} {outcome : Except Error Bool} :
    a.Reaches (asked ++ later ++ given :: (between ++ count :: earlier)) w ps →
    Counts (Key.loginAttempts address) number count.effect count.answer → a.login.maxAttempts ≤ number →
    (∀ y ∈ given :: between, ¬y.effect.Alters (Key.loginAttempts address)) →
    Gives (Key.loginAttempts address) a.login.lockTtl.seconds given.effect given.answer →
    (∀ y ∈ asked ++ later, ¬y.effect.Renews (Key.loginAttempts address)) →
    (∀ y ∈ asked, y.moment < given.moment.after (.ofSeconds a.login.lockTtl.seconds)) →
    (a.isLoginLocked address).run.Course (heard i asked) (.done outcome) → outcome = .ok true

variable {a : Accounts} {log : List (Record ι)} {w : World} {ps : ι → Action α}

theorem reliable_shared (first : Instant) (tables : Database.Tables) :
    World.Reliable { clock := first, backend := .shared first, tables } :=
  ⟨⟨_, _, rfl⟩, fun _ => rfl⟩

/-- Whoever hears that the counter lives and has come to the limit finds
logins locked. -/
theorem ends_isLoginLocked (enabled : a.cache.policy.disabled = false) {address : String}
    {known : Exchange effects → Prop}
    (live : ∀ answer, known ⟨.cache (.ttl (Key.loginAttempts address)), answer⟩ →
      ∃ seconds, answer = .ok seconds ∧ (Cache.Lifetime.ofSeconds seconds).isLive = true)
    (counted : ∀ answer, known ⟨.cache (.get (Key.loginAttempts address)), answer⟩ →
      ∃ bytes, answer = .ok (some bytes) ∧ Cache.HasCounted a.login.maxAttempts bytes) :
    (a.isLoginLocked address).run.Ends known (· = .ok true) := by
  have here : ¬a.cache.policy.disabled = true := Bool.eq_false_iff.1 enabled
  have asks : (Operation.cache (a.cache.lifetime (Key.loginAttempts address))).run.Ends known fun outcome =>
      ∃ lifetime, outcome = .ok lifetime ∧ lifetime.isLive = true := by
    rw [Cache.Manager.lifetime, if_neg here]
    intro answer isKnown
    obtain ⟨seconds, rfl, lives⟩ := live answer isKnown
    exact ⟨_, rfl, lives⟩
  refine asks.bind (f := ExceptT.bindCont _) ?_
  rintro _ ⟨lifetime, rfl, lives⟩
  simp only [ExceptT.bindCont, lives, if_true]
  have looks : (ExceptT.lift (a.cache.get (Key.loginAttempts address)) : Operation _).run.Ends known fun outcome =>
      ∃ bytes, outcome = .ok (some (.ofBytes bytes)) ∧ Cache.HasCounted a.login.maxAttempts bytes := by
    rw [Cache.Manager.get, if_neg here]
    intro answer isKnown
    obtain ⟨bytes, rfl, reached⟩ := counted answer isKnown
    exact ⟨bytes, rfl, reached⟩
  refine looks.bind (f := ExceptT.bindCont _) ?_
  rintro _ ⟨bytes, rfl, number, same, reached⟩
  simp only [ExceptT.bindCont, Cache.attempts?_ofBytes same]
  exact congrArg Except.ok (decide_eq_true reached)

/-- Users of a moderate service run side by side, ask for nothing that it
does not allow, and no request is refused. -/
theorem Reaches.exists_run (moderate : a.Moderate) (reaches : a.Reaches log w ps) :
    ∃ (around : Simulation.Surroundings) (world : World) (clients : ι → Action α), (∀ r, ¬around.refuses r) ∧
      world.Reliable ∧ (∀ i, (clients i).Minds Exchange.IsTimely a.Allows) ∧
      Unsteady around world clients log w ps ∧ Ordinary log w := by
  obtain ⟨⟨database, first, tables, clients, uses, run⟩, ordinary⟩ := reaches
  exact ⟨_, _, clients, fun _ => id, reliable_shared first tables, fun i => (uses i).minds moderate, run, ordinary⟩

theorem Reaches.ne_overflow (moderate : a.Moderate) (reaches : a.Reaches log w ps) (i : ι) :
    ps i ≠ Action.overflow := by
  obtain ⟨_, _, _, _, start, minds, run, ordinary⟩ := reaches.exists_run moderate
  have here := (run.moderate start minds ordinary).1 i
  intro broken
  rw [broken] at here
  exact here.1

theorem Reaches.allows (moderate : a.Moderate) (reaches : a.Reaches log w ps) : ∀ x ∈ log, a.Allows x.effect := by
  obtain ⟨_, _, _, _, start, minds, run, ordinary⟩ := reaches.exists_run moderate
  exact (run.moderate start minds ordinary).2

theorem le_longest_of_moderate (moderate : a.Moderate) (enabled : a.cache.policy.disabled = false) {n : Nat}
    (own : n ∈ a.lifetimes) {v : World} {moment : Instant} (order : moment ≤ v.clock) :
    moment.after (.ofSeconds n) ≤ v.clock.after (.ofSeconds longest) := by
  have short := moderate.lifetimes enabled n own
  rw [Instant.le_def] at order ⊢
  simp only [longest] at short
  simp only [Instant.after, Duration.ofSeconds, Duration.nanos_ofNanos, Duration.maxNanos, longest]
  omega

theorem Allows.enabled {e : Effect} {answer : e.Answer} {key : String} {n : Nat} (allowed : a.Allows e)
    (gives : Gives key n e answer) : a.cache.policy.disabled = false := by
  refine Bool.eq_false_iff.2 fun disabled => ?_
  cases gives with
  | set own long => exact allowed.2 disabled _ _ _ (.set own long)
  | setMany own long last => exact allowed.2 disabled _ _ _ (.setMany own long last)
  | expire long => exact allowed.2 disabled _ _ _ (.expire long)

theorem tellsLive_of_lives {v v' : World} {around : Simulation.Surroundings} {e : Effect} {answer : e.Answer}
    {key : String} {deadline : Instant} {worth : Bytes → Prop} (lives : v.Lives key deadline worth)
    (reliable : v.Reliable) (steady : ∀ r, ¬around.refuses r) (short : deadline ≤ v.clock.after (.ofSeconds longest))
    (meets : v.Meets around e answer v') : TellsLive key e answer := by
  unfold TellsLive
  split
  · rintro rfl
    exact lives.ttl reliable steady short meets
  · trivial

theorem Reaches.tellsLive (moderate : a.Moderate) {later earlier : List (Record ι)} {x : Record ι} {key : String}
    {n : Nat} (reaches : a.Reaches (later ++ x :: earlier) w ps) (own : n ∈ a.lifetimes)
    (gives : Gives key n x.effect x.answer) (lasts : ∀ y ∈ later, ¬y.effect.Renews key) :
    ∀ y ∈ later, y.moment < x.moment.after (.ofSeconds n) → TellsLive key y.effect y.answer := by
  have allowed := reaches.allows moderate x (List.mem_append_right _ (List.mem_cons_self ..))
  obtain ⟨_, _, _, steady, start, minds, run, ordinary⟩ := reaches.exists_run moderate
  intro y member early
  obtain ⟨v, v', reliable, order, lives, meets⟩ := run.lives start minds Cache.countsUp_any ordinary rfl lasts
    (fun before _ meets positive => (before.reliable start).lives_of_gives gives meets positive) y member early
  exact tellsLive_of_lives lives reliable steady
    (le_longest_of_moderate moderate (allowed.enabled gives) own order) meets

/-- A counter that was counted up keeps at least its number until it is
given the time that a lock lasts, and from then until that time ends. -/
theorem Reaches.lives_counter (moderate : a.Moderate) {later between earlier : List (Record ι)} {count given : Record ι}
    {key : String} {number : Int} {n : Nat}
    (reaches : a.Reaches (later ++ given :: (between ++ count :: earlier)) w ps)
    (counts : Counts key number count.effect count.answer) (leaves : ∀ y ∈ given :: between, ¬y.effect.Alters key)
    (gives : Gives key n given.effect given.answer) (lasts : ∀ y ∈ later, ¬y.effect.Renews key) :
    ∃ around : Simulation.Surroundings, (∀ r, ¬around.refuses r) ∧
      ∀ y ∈ later, y.moment < given.moment.after (.ofSeconds n) → ∃ v v' : World, v.Reliable ∧ given.moment ≤ v.clock ∧
        v.Lives key (given.moment.after (.ofSeconds n)) (Cache.HasCounted number) ∧
        v.Meets around y.effect y.answer v' := by
  obtain ⟨_, _, _, steady, start, minds, run, ordinary⟩ := reaches.exists_run moderate
  obtain ⟨own, leaves⟩ := List.forall_mem_cons.1 leaves
  refine ⟨_, steady, run.lives start minds (Cache.countsUp_hasCounted number) ordinary rfl lasts ?_⟩
  intro v qs v' before earlier meets positive
  have worthy := (before.since start minds earlier rfl leaves
    (fun v => ∀ e, v.cached? key = some e → Cache.HasCounted number e.value)
    (fun before _ _ meets => (before.reliable start).hasCounted_of_counts counts meets)
    (fun t worthy e live => worthy e (World.cached?_of_advanceTo live))
    (fun spares reliable worthy meets => reliable.worth_of_meets meets spares worthy)).1
  exact (before.reliable start).lives_of_prolongs gives own meets positive worthy

/-- What a service gives is counted right if it is moderate. -/
theorem usable_of_moderate (moderate : a.Moderate) : a.Usable where
  lasts reaches := reaches.ne_overflow moderate
  lives reaches := reaches.tellsLive moderate
  locks {ι α _ asked later between earlier count given w ps address number i outcome} reaches counts reached leaves
      gives lasts early course := by
    have allowed := reaches.allows moderate given (List.mem_append_right _ (List.mem_cons_self ..))
    obtain ⟨around, steady, there⟩ := reaches.lives_counter moderate counts leaves gives lasts
    have asks : ∀ x ∈ heard i asked, ∃ v v' : World, v.Reliable ∧ given.moment ≤ v.clock ∧
        v.Lives (Key.loginAttempts address) (given.moment.after (.ofSeconds a.login.lockTtl.seconds))
          (Cache.HasCounted number) ∧ v.Meets around x.request x.answer v' := by
      intro x told
      obtain ⟨y, member, -, rfl⟩ := Simulation.exists_of_mem_heard told
      exact there y (List.mem_append_left _ member) (early y member)
    have ends : (a.isLoginLocked address).run.Ends (· ∈ heard i asked) (· = .ok true) := by
      refine ends_isLoginLocked (allowed.enabled gives) (fun answer told => ?live) fun answer told => ?counted
      case live =>
        obtain ⟨v, v', reliable, order, lives, meets⟩ := asks _ told
        exact lives.ttl reliable steady
          (le_longest_of_moderate moderate (allowed.enabled gives) lockTtl_mem_lifetimes order) meets
      case counted =>
        obtain ⟨v, v', reliable, order, lives, meets⟩ := asks _ told
        obtain ⟨bytes, found, m, counted, above⟩ := lives.get reliable steady meets
        exact ⟨bytes, found, m, counted, Int.le_trans reached above⟩
    exact ends.of_course course fun _ => id

end Accounts

end AccountCache
