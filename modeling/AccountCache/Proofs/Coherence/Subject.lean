import AccountCache.Proofs.Coherence.Datum
import AccountCache.Proofs.Store.Locks

namespace AccountCache

namespace Key

theorem exists_eq_lock {key : String} (guards : IsLock key) : ∃ k, key = lock k := by
  obtain ⟨rest, parts⟩ := guards
  have text : lock (String.ofList rest) = key := by
    rw [lock, ← String.toList_inj, String.toList_append]
    exact (congrArg (_ ++ ·) String.toList_ofList).trans parts
  exact ⟨_, text.symm⟩

theorem loginAttempts_injective {a b : String} (same : loginAttempts a = loginAttempts b) : a = b :=
  (String.append_right_inj _).1 same

theorem lock_ne_loginAttempts (key address : String) : lock key ≠ loginAttempts address := by
  intro same
  exact absurd (starts_of_append_eq same) (by decide)

theorem loginAttempts_not_isLock (address : String) : ¬IsLock (loginAttempts address) := by
  intro guards
  obtain ⟨k, same⟩ := exists_eq_lock guards
  exact lock_ne_loginAttempts k address same.symm

end Key

namespace Datum

theorem key_not_isLock (d : Datum) : ¬Key.IsLock d.key := by
  intro guards
  obtain ⟨k, same⟩ := Key.exists_eq_lock guards
  exact d.key_ne_lock k same

theorem key_ne_loginAttempts (d : Datum) (address : String) : d.key ≠ Key.loginAttempts address := by
  intro same
  rw [key_eq] at same
  refine absurd (starts_of_append_eq same) ?_
  cases d <;> simp only [stem] <;> decide

end Datum

/-- What an entry of the cache is about: something that it is a copy of,
or the failed logins with an email. These are all the entries that the
service makes. -/
inductive Subject where
  | datum (d : Datum)
  | failedLogins (address : String)
deriving DecidableEq

namespace Subject

def key : Subject → String
  | datum d => d.key
  | failedLogins address => Key.loginAttempts address

theorem key_injective {s s' : Subject} (same : s.key = s'.key) : s = s' := by
  cases s with
  | datum d =>
    cases s' with
    | datum d' => exact congrArg datum (Datum.key_injective same)
    | failedLogins address => exact absurd same (d.key_ne_loginAttempts address)
  | failedLogins address =>
    cases s' with
    | datum d => exact absurd same.symm (d.key_ne_loginAttempts address)
    | failedLogins address' => exact congrArg failedLogins (Key.loginAttempts_injective same)

theorem key_ne_lock (s : Subject) (key : String) : s.key ≠ Key.lock key := by
  cases s with
  | datum d => exact d.key_ne_lock key
  | failedLogins address => exact (Key.lock_ne_loginAttempts key address).symm

/-- Keys never collide, whatever the texts that they are made of contain.
Two subjects have one key only if they are the same, no subject has the key
of a lock, whatever the lock guards, and locks of different keys have
different keys. -/
theorem keys_apart :
    (∀ s s' : Subject, s.key = s'.key ↔ s = s') ∧ (∀ (s : Subject) (guarded : String), s.key ≠ Key.lock guarded) ∧
      ∀ guarded guarded' : String, Key.lock guarded = Key.lock guarded' ↔ guarded = guarded' := by
  refine ⟨fun s s' => ?keys, key_ne_lock, fun guarded guarded' => ?locks⟩
  case keys => exact ⟨key_injective, congrArg key⟩
  case locks => exact ⟨Key.lock_injective, congrArg Key.lock⟩

end Subject

end AccountCache
