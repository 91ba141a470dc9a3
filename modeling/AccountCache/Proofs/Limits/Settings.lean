import AccountCache.Proofs.Limits.Overlong
import AccountCache.Startup

namespace AccountCache

open Cache (longest)
open Simulation (Unsteady)

namespace Settings

variable {s : Settings}

theorem problem?_policy (accepted : s.problem? = none) : s.cache.policy.problem? = none := by
  have cache : s.cache.problem? = none := by
    cases found : s.cache.problem? with
    | none => rfl
    | some reason => simp [problem?, found] at accepted
  have positive : s.cache.defaultTtlSecs ≠ 0 ∧ s.cache.nilTtlSecs ≠ 0 ∧ s.cache.lockDurationMs ≠ 0 ∧
      s.cache.lockMaxTries ≠ 0 := by
    simp only [Cache.problem?] at cache
    grind
  obtain ⟨defaultTtl, nilTtl, lockDuration, tries⟩ := positive
  have long : (Duration.ofMillis s.cache.lockDurationMs).millis ≠ 0 := by
    simp only [Duration.ofMillis, Duration.millis, Duration.nanos_ofNanos, Duration.maxNanos]
    omega
  rw [AccountCache.Cache.Policy.problem?, Cache.policy]
  simp only [Duration.seconds_ofSeconds]
  rw [if_neg (by omega), if_neg (by omega), if_neg long, if_neg tries]

theorem ofPolicy_of_problem? {p : AccountCache.Cache.Policy} (usable : p.problem? = none) :
    AccountCache.Cache.Manager.ofPolicy p = .ok ⟨p, usable⟩ := by
  rw [AccountCache.Cache.Manager.ofPolicy]
  split
  · rfl
  · next found => cases usable.symm.trans found

/-- Without a server accepted settings make a service. Nothing else can go
wrong before it is used. -/
theorem exists_service (accepted : s.problem? = none) (alone : s.redis.enabled = false) :
    ∃ usable, Service.ofSettings s = .ok ⟨s, .inProcess, ⟨s.cache.policy, usable⟩⟩ := by
  have usable := problem?_policy accepted
  refine ⟨usable, ?_⟩
  rw [Service.ofSettings, Service.openHome, alone, ofPolicy_of_problem? usable]
  rfl

/-- Whether no lifetime in settings is longer than 9223372036854775 seconds,
the most of which a number of 64 bits with a sign can count the
milliseconds. -/
structure Short (s : Settings) : Prop where
  defaultTtl : s.cache.defaultTtlSecs ≤ longest
  nilTtl : s.cache.nilTtlSecs ≤ longest
  lockTtl : s.login.lockTtlSecs ≤ longest

theorem short_iff : s.Short ↔
    s.cache.defaultTtlSecs ≤ longest ∧ s.cache.nilTtlSecs ≤ longest ∧ s.login.lockTtlSecs ≤ longest :=
  ⟨fun short => ⟨short.defaultTtl, short.nilTtl, short.lockTtl⟩, fun ⟨usual, absent, lock⟩ => ⟨usual, absent, lock⟩⟩

/-- Accepted settings that need no server make a service. It does what it is
set to, whatever its users do, exactly if its cache is switched off or none
of its lifetimes is longer than 9223372036854775 seconds: no user ever
breaks off, keys that were given a lifetime from the settings are told to be
live until it ends, and so are logins to be locked. The times for locks and
waits have 64 bits. -/
theorem usable_iff_short (accepted : s.problem? = none) (alone : s.redis.enabled = false)
    (lockDuration : s.cache.lockDurationMs ≤ maxNat64) (waitBudget : s.cache.waitBudgetMs ≤ maxNat64) :
    ∃ service, Service.ofSettings s = .ok service ∧ service.home = .inProcess ∧
      (service.accounts.Usable ↔ s.cache.disabled = true ∨ s.Short) := by
  obtain ⟨usable, made⟩ := exists_service accepted alone
  refine ⟨_, made, rfl, (Accounts.usable_iff_lifetimes ?_ ?_).trans (or_congr Iff.rfl ?_)⟩
  · exact Duration.ofMillis_le_reach lockDuration
  · exact Duration.ofMillis_le_reach waitBudget
  · refine Accounts.forall_mem_lifetimes.trans (Iff.trans ?_ short_iff.symm)
    exact and_congr Duration.seconds_ofSeconds_le_longest
      (and_congr Duration.seconds_ofSeconds_le_longest Duration.seconds_ofSeconds_le_longest)

/-- The defaults are accepted and usable. -/
theorem usable_by_default : ({} : Settings).problem? = none ∧
    ∃ service, Service.ofSettings {} = .ok service ∧ service.home = .inProcess ∧ service.accounts.Usable := by
  have accepted : ({} : Settings).problem? = none := by decide +kernel
  obtain ⟨service, made, home, usable⟩ := usable_iff_short (s := {}) accepted rfl (by decide) (by decide)
  exact ⟨accepted, service, made, home, usable.2 (.inr ⟨by decide, by decide, by decide⟩)⟩

/-- A user who fails to log in once and then asks whether logins
are locked. -/
def failOnce (a : Accounts) (address : String) : Action (Except Accounts.Error Int × Except Accounts.Error Bool) :=
  (a.countLoginAttempt address).run.bind fun counted => (a.isLoginLocked address).run.bind fun locked =>
    .done (counted, locked)

set_option maxRecDepth 4000 in
/-- Not all that is accepted is usable: where one failed login is to lock
logins for 9223372036854776 seconds they are not locked at all, and where it
is to lock them for as long as can be set, the failed login breaks off. -/
theorem lock_without_effect :
    (∃ s service, s.problem? = none ∧ s.redis.enabled = false ∧ s.login = ⟨1, 9223372036854776⟩ ∧
      Service.ofSettings s = .ok service ∧ ∃ log w, ∃ ps : Unit → Action _,
        Unsteady ⟨fun _ _ _ _ => False, fun _ => False⟩ {} (fun _ => failOnce service.accounts "a@b") log w ps ∧
        w.clock = .start ∧ ps () = .done (.ok 1, .ok false)) ∧
    ∃ s service, s.problem? = none ∧ s.redis.enabled = false ∧ s.login = ⟨1, 18446744073709551615⟩ ∧
      Service.ofSettings s = .ok service ∧ ∃ log w, ∃ ps : Unit → Action _,
        Unsteady ⟨fun _ _ _ _ => False, fun _ => False⟩ {} (fun _ => failOnce service.accounts "a@b") log w ps ∧
        w.clock = .start ∧ ps () = Action.overflow := by
  refine ⟨⟨{ login := ⟨1, 9223372036854776⟩ }, _, by decide +kernel, rfl, rfl, rfl, ?_⟩,
    { login := ⟨1, 18446744073709551615⟩ }, _, by decide +kernel, rfl, rfl, rfl, ?_⟩
  · have fresh := @Unsteady.start Unit _ _ ⟨fun _ _ _ _ => False, fun _ => False⟩ {} fun _ =>
      failOnce (Service.accounts ⟨{ login := ⟨1, 9223372036854776⟩ }, .inProcess, default⟩) "a@b"
    have counted := fresh.step () rfl (.of_serve 0 (.ok 1) rfl)
    have given := counted.step () rfl (.of_serve 0 (.ok true) rfl)
    have looked := given.step () rfl (.of_serve 0 (.ok (Cache.MemoryStore.roundMillis 9223372036854776000)) rfl)
    exact ⟨_, _, _, looked, rfl, rfl⟩
  · have fresh := @Unsteady.start Unit _ _ ⟨fun _ _ _ _ => False, fun _ => False⟩ {} fun _ =>
      failOnce (Service.accounts ⟨{ login := ⟨1, 18446744073709551615⟩ }, .inProcess, default⟩) "a@b"
    have counted := fresh.step () rfl (.of_serve 0 (.ok 1) rfl)
    exact ⟨_, _, _, counted.crash () 0 rfl rfl, rfl, Function.update_self ..⟩

end Settings

end AccountCache
