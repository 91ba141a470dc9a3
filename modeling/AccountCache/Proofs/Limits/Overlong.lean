import AccountCache.Proofs.Limits.Usable

namespace AccountCache

open Cache (longest reach)
open Simulation (Ordinary Record Unsteady World)

namespace Accounts

variable {ι α : Type} [DecidableEq ι] {a : Accounts} {log : List (Record ι)} {w : World} {ps : ι → Action α} {i : ι}
  {r : Cache.Request} {next : (Effect.cache r).Answer → Action α} {n : Nat}

namespace Reaches

theorem wait (reaches : a.Reaches log w ps) {later : Instant} (ample : (w.advanceTo later).clock.Ample) :
    a.Reaches log (w.advanceTo later) ps := by
  obtain ⟨⟨database, first, tables, clients, uses, run⟩, _, recent⟩ := reaches
  exact ⟨⟨database, first, tables, clients, uses, run.wait later⟩, ample, recent⟩

theorem reliable (reaches : a.Reaches log w ps) : w.Reliable := by
  obtain ⟨⟨database, first, tables, clients, _, run⟩, _⟩ := reaches
  exact run.reliable (reliable_shared first tables)

/-- The request that a user makes next may be answered. -/
theorem ask (reaches : a.Reaches log w ps) (asks : ps i = .ask (.cache r) next) {answer : (Effect.cache r).Answer}
    {w' : World} (answers : w.Answers (.cache r) answer w') :
    a.Reaches (⟨⟨i, .cache r, answer⟩, w.clock, w.tables, w'.tables⟩ :: log) w'
      (Function.update ps i (next answer)) := by
  obtain ⟨⟨database, first, tables, clients, uses, run⟩, ample, recent⟩ := reaches
  have meets : w.Meets ⟨database, fun _ => False⟩ (.cache r) answer w' := .cache w.tokenCount answers
  refine ⟨⟨database, first, tables, clients, uses, run.step i asks meets⟩, ?_, List.forall_mem_cons.2 ⟨trivial, recent⟩⟩
  rwa [meets.clock_eq]

theorem crash (reaches : a.Reaches log w ps) (asks : ps i = .ask (.cache r) next) (broke : (w.serveCache r).1 = none) :
    a.Reaches log (w.serveCache r).2 (Function.update ps i Action.overflow) := by
  obtain ⟨⟨database, first, tables, clients, uses, run⟩, ample, recent⟩ := reaches
  refine ⟨⟨database, first, tables, clients, uses, run.crash i w.tokenCount asks broke⟩, ?_, recent⟩
  rwa [World.clock_serveCache]

end Reaches

theorem le_of_mem_lifetimes (a : Accounts) : ∀ n ∈ a.lifetimes, n ≤ 18446744073709551615 :=
  forall_mem_lifetimes.2 ⟨Duration.seconds_le _, Duration.seconds_le _, Duration.seconds_le _⟩

/-- Nobody may ask for the life of a key at a time at which it is
counted wrong. -/
theorem Usable.not_wrapped (usable : a.Usable) {x : Record ι} {key : String} {worth : Bytes → Prop} {rounds : Nat}
    {rest : (Effect.cache (.ttl key)).Answer → Action α} (reaches : a.Reaches (x :: log) w ps) (own : n ∈ a.lifetimes)
    (gives : Gives key n x.effect x.answer) (lives : w.Lives key (x.moment.after (.ofSeconds n)) worth)
    (early : w.clock < x.moment.after (.ofSeconds n))
    (left : ((x.moment.after (.ofSeconds n)).since w.clock).millis =
      9223372036854775808 + 18446744073709551616 * rounds) :
    ps i ≠ .ask (.cache (.ttl key)) rest := by
  intro asks
  have fits : (Cache.Request.ttl key).Fits := List.forall_mem_nil _
  obtain ⟨answer, served⟩ := reaches.reliable.exists_answer_of_fits reaches.2.1 fits
  have asked : a.Reaches ([⟨⟨i, .cache (.ttl key), answer⟩, w.clock, w.tables, _⟩] ++ x :: log) _ _ :=
    reaches.ask asks (.cache served)
  obtain ⟨seconds, rfl, told⟩ := usable.lives asked own gives (List.forall_mem_singleton.2 id) _
    (List.mem_singleton_self _) early rfl
  obtain rfl := Except.ok.inj (lives.ttl_of_wrapped reaches.reliable left (.cache served))
  cases told

/-- An entry that was given more than the longest lifetime counts as gone at
some time before its end, if the clock has a moment for that end at all. If
it has none, whoever gave the lifetime broke off, and either way the service
is not usable. -/
theorem Usable.le_longest (usable : a.Usable) (key : String) (own : n ∈ a.lifetimes)
    (reaches : a.Reaches log w ps) (first : w.clock = .start) (asks : ps i = .ask (.cache r) next)
    (gives : ∀ answer w', w.Answers (.cache r) answer w' → Gives key n (.cache r) answer)
    (looks : ∀ answer, ∃ rest, next answer = .ask (.cache (.ttl key)) rest) : n ≤ longest := by
  by_contra long
  obtain ⟨t, rounds, ample, early, left⟩ :=
    Cache.MemoryStore.exists_wrapped (Nat.lt_of_not_le long) (le_of_mem_lifetimes a n own)
  cases served : (w.serveCache r).1 with
  | none => exact usable.lasts (reaches.crash asks served) i (Function.update_self ..)
  | some answer =>
    have answers : w.Answers (.cache r) answer (w.serveCache r).2 := .cache served
    have gave := gives answer _ answers
    have meets : w.Meets ⟨fun _ _ _ _ => False, fun _ => False⟩ (.cache r) answer _ := .cache w.tokenCount answers
    have now : ((w.serveCache r).2.advanceTo t).clock = t := by
      show max (w.serveCache r).2.clock t = t
      rw [World.clock_serveCache, first, Instant.max_start]
    have waited := (reaches.ask asks answers).wait (now.symm ▸ ample)
    have lives := reaches.reliable.lives_of_gives gave meets fun none => long (none ▸ Nat.zero_le _)
    rw [← first] at early left
    obtain ⟨rest, looks⟩ := looks answer
    exact usable.not_wrapped waited own gave (lives.wait (now.symm ▸ early)) (now.symm ▸ early) (now.symm ▸ left)
      ((Function.update_self ..).trans looks)

theorem exists_ask_lifetime (enabled : a.cache.policy.disabled = false) (key : String) :
    ∃ rest, ((a.cache.lifetime key).bind fun _ => .done () : Action Unit) = .ask (.cache (.ttl key)) rest := by
  rw [Cache.Manager.lifetime, if_neg (Bool.eq_false_iff.1 enabled)]
  exact ⟨_, rfl⟩

theorem uses_lifetime (key : String) : a.Uses ((a.cache.lifetime key).bind fun _ => .done ()) :=
  .cache (.lifetime key) (List.forall_mem_nil _) fun _ => .done ()

theorem reaches_first {client : Action α} (uses : a.Uses client) :
    a.Reaches ([] : List (Record Unit)) {} fun _ => client :=
  ⟨⟨fun _ _ _ _ => False, .start, {}, fun _ => client, fun _ => uses, .start⟩, by unfold Instant.Ample; decide,
    List.forall_mem_nil _⟩

/-- What is stored with a lifetime that the service is set to lives no
longer than the longest. -/
theorem Usable.seconds_le_longest (usable : a.Usable) (enabled : a.cache.policy.disabled = false) {item : Cache.Item}
    (uses : a.Uses ((a.cache.store item).bind fun _ => (a.cache.lifetime item.key).bind fun _ => .done ()))
    (own : a.cache.seconds item ∈ a.lifetimes) : a.cache.seconds item ≤ longest := by
  have asks : ((a.cache.store item).bind fun _ => (a.cache.lifetime item.key).bind fun _ => .done () : Action Unit) =
      .ask (.cache (.set (a.cache.entry item))) fun _ => (a.cache.lifetime item.key).bind fun _ => .done () := by
    rw [Cache.Manager.store, if_neg (Bool.eq_false_iff.1 enabled)]
    rfl
  refine usable.le_longest item.key own (reaches_first uses) rfl (i := ()) asks (fun answer w' answers => ?_)
    fun _ => exists_ask_lifetime enabled item.key
  cases answer with
  | ok => exact .set rfl rfl
  | error e => cases (reliable_shared .start {}).isIncrement_of_error answers

/-- A login lock lasts no longer than the longest lifetime. -/
theorem Usable.lockTtl_le_longest (usable : a.Usable) (enabled : a.cache.policy.disabled = false) :
    a.login.lockTtl.seconds ≤ longest := by
  have uses : a.Uses ((a.countLoginAttempt "").run.bind fun _ =>
      (a.cache.lifetime (Key.loginAttempts "")).bind fun _ => .done ()) :=
    .service (.countLoginAttempt "") fun _ => uses_lifetime _
  have first := reaches_first uses
  rw [countLoginAttempt_bind enabled] at first
  -- Only what is there can be given a life, so the counter is counted up before it is prolonged.
  have one : (({} : World).serveCache (.increment (Key.loginAttempts ""))).1 = some (.ok 1) := rfl
  have counted := first.ask (i := ()) rfl (.cache one)
  refine usable.le_longest (Key.loginAttempts "") lockTtl_mem_lifetimes counted rfl (i := ()) (Function.update_self ..)
    (fun answer w' answers => ?_) fun answer => ?_
  · cases answer with
    | error e => cases counted.reliable.isIncrement_of_error answers
    | ok there =>
      obtain ⟨_, _, values, view, answered, _⟩ := counted.reliable.answers_values answers rfl
      have live : values.live? _ (Key.loginAttempts "") = some ⟨.ofText "1", none⟩ := (view _).symm.trans rfl
      obtain ⟨_, served, ⟨⟩⟩ := Option.map_eq_some_iff.1 answered
      obtain rfl := (Cache.MemoryStore.expire_of_live live served).1
      exact .expire rfl
  · cases answer with
    | ok | error => exact exists_ask_lifetime enabled _

theorem Usable.le_longest_of_mem (usable : a.Usable) (enabled : a.cache.policy.disabled = false) :
    ∀ n ∈ a.lifetimes, n ≤ longest := by
  have usual : a.cache.seconds (.new "" Cache.nilBytes) = a.cache.policy.defaultTtl.seconds := if_pos (Nat.zero_div _)
  have usualTtl : a.cache.policy.defaultTtl.seconds ≤ longest := by
    refine usual ▸ usable.seconds_le_longest enabled ?_ (usual ▸ List.mem_cons_self ..)
    exact .cache (.store (.new "" Cache.nilBytes)) (List.forall_mem_singleton.2 (Nat.zero_le _))
      fun _ => uses_lifetime _
  have nilTtl : a.cache.policy.nilTtl.seconds ≤ longest := by
    by_cases none : a.cache.policy.nilTtl.seconds = 0
    · exact none ▸ Nat.zero_le _
    · have own : a.cache.seconds ⟨"", Cache.nilBytes, a.cache.policy.nilTtl⟩ = a.cache.policy.nilTtl.seconds :=
        if_neg none
      refine own ▸ usable.seconds_le_longest enabled ?_ (own ▸ by simp [lifetimes])
      exact .cache (.storeAbsent "") (List.forall_mem_nil _) fun _ => uses_lifetime _
  exact forall_mem_lifetimes.2 ⟨usualTtl, nilTtl, usable.lockTtl_le_longest enabled⟩

/-- A service is usable exactly if its cache is switched off or all its
lifetimes are short. -/
theorem usable_iff_lifetimes (lockDuration : a.cache.policy.lockDuration ≤ reach)
    (waitBudget : a.cache.policy.waitBudget ≤ reach) :
    a.Usable ↔ a.cache.policy.disabled = true ∨ ∀ n ∈ a.lifetimes, n ≤ longest := by
  constructor
  · intro usable
    cases enabled : a.cache.policy.disabled with
    | true => exact .inl rfl
    | false => exact .inr (usable.le_longest_of_mem enabled)
  · intro short
    refine usable_of_moderate ⟨lockDuration, waitBudget, fun enabled => short.resolve_left ?_⟩
    exact Bool.eq_false_iff.1 enabled

end Accounts

end AccountCache
