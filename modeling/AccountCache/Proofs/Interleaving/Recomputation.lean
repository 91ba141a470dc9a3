import AccountCache.Proofs.Interleaving.Backend
import AccountCache.Proofs.Interleaving.GetOrLock

namespace AccountCache

open Cache (Cached Lock Lookup Manager)

namespace Simulation

/-- A caller that computes the value itself if it gets the lock, stores it
and gives the lock back. -/
def recompute (m : Manager) (key : String) (value : Bytes) (ttl : Duration) :
    Action (Except Cache.Error Lookup) := do
  match ← m.getOrLock key with
  | .ok (.owner lock) =>
    let _ ← m.store ⟨key, value, ttl⟩
    Manager.release lock
    return .ok (.owner lock)
  | found => return found

inductive Standing where
  /-- It has not tried for the lock. -/
  | looking
  /-- There was no value when it looked, and the next thing is to try
  for the lock. -/
  | missed
  | waiting
  | hit (value : Cached)
  | owner (lock : Lock)
  | stored (lock : Lock)
  | released (lock : Lock)
  | failed

namespace Standing

def Looks : Standing → Prop
  | looking | waiting => True
  | _ => False

/-- How a caller goes on. A request may fail, and then nothing is asked of
the caller any more. -/
inductive Moves (key : String) (value : Bytes) : Discipline effects Standing
  | miss {s} : s.Looks → Moves key value s (.cache (.get key)) (.ok none) missed
  | hit {s bytes} : s.Looks → Moves key value s (.cache (.get key)) (.ok (some bytes)) (hit (.ofBytes bytes))
  | grant {expiry tries lock} : expiry.nanos ≠ 0 →
    Moves key value missed (.cache (.acquire key expiry tries)) (.ok (some lock)) (owner lock)
  | refuse {expiry tries} : expiry.nanos ≠ 0 →
    Moves key value missed (.cache (.acquire key expiry tries)) (.ok none) waiting
  | probe {held} : Moves key value waiting (.cache (.isHeld key)) (.ok held) waiting
  | store {lock seconds} : seconds ≠ 0 →
    Moves key value (owner lock) (.cache (.set ⟨key, value, seconds⟩)) (.ok ()) (stored lock)
  | release {lock gone} : Moves key value (stored lock) (.cache (.release lock)) (.ok gone) (released lock)
  | fail {s r e} : r.isIncrement = false → Moves key value s (.cache r) (.error e) failed
  | failed {e answer} : Moves key value failed e answer failed
  | quiet {s e answer} : e.IsQuiet → Moves key value s e answer s

def Finds (key : String) : Standing → Except Cache.Error Lookup → Prop
  | hit value, found => found = .ok (.hit value)
  | owner lock, found => found = .ok (.owner lock)
  | waiting, found => ∃ waited, found = .error (.waitTooLong key waited)
  | failed, _ => True
  | _, _ => False

def Ends (key : String) : Standing → Except Cache.Error Lookup → Prop
  | hit value, found => found = .ok (.hit value)
  | released lock, found => found = .ok (.owner lock)
  | waiting, found => ∃ waited, found = .error (.waitTooLong key waited)
  | failed, _ => True
  | _, _ => False

variable {key : String} {value : Bytes}

theorem moves_patient : Discipline.Patient (Moves key value) := fun _ _ quiet _ => .quiet quiet

/-- After a failure nothing is asked of a caller. -/
theorem conforms_failed {α : Type} (p : Action α) {ends : Standing → α → Prop} (any : ∀ a, ends failed a) :
    p.Conforms (Moves key value) ends failed := by
  induction p with
  | done a => exact any a
  | ask e next ih => exact fun answer => ⟨failed, .failed, ih answer⟩

def Looked : Standing → Option Cached → Prop
  | missed, found => found = none
  | hit value, found => found = some value
  | failed, _ => True
  | _, _ => False

theorem conforms_checkCache {s : Standing} (looks : s.Looks) :
    (Manager.checkCache key).Conforms (Moves key value) Looked s := by
  refine Manager.conforms_checkCache moves_patient (fun found => ?_) fun e => ⟨failed, .fail rfl, trivial⟩
  cases found with
  | none => exact ⟨missed, .miss looks, rfl⟩
  | some bytes => exact ⟨.hit (.ofBytes bytes), .hit looks, rfl⟩

def Tried : Standing → Cache.LockAttempt → Prop
  | owner lock, attempt => attempt = .acquired lock
  | waiting, attempt => attempt = .contended
  | failed, _ => True
  | _, _ => False

theorem conforms_tryLock (m : Manager) : (m.tryLock key).Conforms (Moves key value) Tried missed := by
  have lasting := (Cache.Policy.problem?_eq_none m.usable).2.2
  exact m.conforms_tryLock moves_patient (fun lock => ⟨owner lock, .grant lasting, rfl⟩)
    ⟨waiting, .refuse lasting, rfl⟩ fun e => ⟨failed, .fail rfl, trivial⟩

/-- Whether a caller may be in the midst of its wait. -/
def Waits : Standing → Prop
  | waiting | failed => True
  | _ => False

/-- From where it has missed, a caller tries for the lock and else waits. -/
theorem conforms_try {α : Type} {m : Manager} {f : Cache.LockAttempt → Action α} {ends : Standing → α → Prop}
    (any : ∀ a, ends failed a) (acquired : ∀ lock, (f (.acquired lock)).Conforms (Moves key value) ends (owner lock))
    (contended : (f .contended).Conforms (Moves key value) ends waiting) :
    (m.tryLock key >>= f).Conforms (Moves key value) ends missed := by
  refine (conforms_tryLock m).bind fun s attempt after => ?_
  cases s with
  | owner lock =>
    obtain rfl := after
    exact acquired lock
  | waiting =>
    obtain rfl := after
    exact contended
  | failed => exact conforms_failed _ any
  | _ => cases after

/-- A look at the cache ends with a value, or is followed by an attempt
at the lock. -/
theorem conforms_look {α : Type} {s : Standing} {f : Option Cached → Action α} {ends : Standing → α → Prop}
    (looks : s.Looks) (any : ∀ a, ends failed a)
    (found : ∀ cached, (f (some cached)).Conforms (Moves key value) ends (hit cached))
    (nothing : (f none).Conforms (Moves key value) ends missed) :
    (Manager.checkCache key >>= f).Conforms (Moves key value) ends s := by
  refine (conforms_checkCache looks).bind fun s cached after => ?_
  cases s with
  | hit value =>
    obtain rfl := after
    exact found value
  | missed =>
    obtain rfl := after
    exact nothing
  | failed => exact conforms_failed _ any
  | _ => cases after

theorem conforms_poll (m : Manager) {s : Standing} (waits : s.Waits) : (m.poll key).Conforms (Moves key value)
    (fun s found => found.elim s.Waits fun found => s.Finds key (.ok found)) s := by
  have any : ∀ found : Option Lookup,
      found.elim failed.Waits fun found => failed.Finds key (.ok found) := by
    intro found
    cases found with
    | none => trivial
    | some found => trivial
  cases s with
  | failed => exact conforms_failed _ any
  | waiting =>
    have probe : (Manager.isLocked key).Conforms (Moves key value) (fun s _ => s.Waits) waiting :=
      Manager.conforms_isLocked moves_patient (fun held => ⟨waiting, .probe, trivial⟩)
        fun e => ⟨failed, .fail rfl, trivial⟩
    refine probe.bind fun s held after => ?_
    cases s with
    | failed => exact conforms_failed _ any
    | waiting =>
      cases held with
      | true => exact trivial
      | false =>
        refine conforms_look trivial any (fun cached => rfl) ?_
        exact conforms_try any (fun lock => rfl) trivial
    | _ => cases after
  | _ => cases waits

theorem conforms_getOrLock (m : Manager) (enabled : m.policy.disabled = false) :
    (m.getOrLock key).Conforms (Moves key value) (Finds key) looking := by
  have any : ∀ found, Finds key failed found := fun _ => trivial
  simp only [Manager.getOrLock, enabled, Bool.false_eq_true, if_false]
  refine conforms_look trivial any (fun cached => rfl) (conforms_try any (fun lock => rfl) ?_)
  refine m.conforms_wait moves_patient Waits (fun s waits => conforms_poll m waits) ?_ trivial
  intro s waits waited
  cases s with
  | waiting => exact ⟨waited, rfl⟩
  | failed => trivial
  | _ => cases waits

theorem conforms_store (m : Manager) (enabled : m.policy.disabled = false) (ttl : Duration) (lock : Lock) :
    (m.store ⟨key, value, ttl⟩).Conforms (Moves key value) (fun s _ => s = stored lock ∨ s = failed)
      (owner lock) := by
  simp only [Manager.store, enabled, Bool.false_eq_true, if_false]
  intro answer
  cases answer with
  | ok => exact ⟨stored lock, .store (m.seconds_ne_zero _), .inl rfl⟩
  | error e => exact ⟨failed, .fail rfl, .inr rfl⟩

theorem conforms_release (lock : Lock) :
    (Manager.release lock).Conforms (Moves key value) (fun s _ => s = released lock ∨ s = failed)
      (stored lock) := by
  intro answer
  rcases answer with e | _ | _
  · exact ⟨failed, .fail rfl, moves_patient.conforms (e := .warn _) trivial fun _ => .inr rfl⟩
  · exact ⟨released lock, .release, moves_patient.conforms (e := .warn _) trivial fun _ => .inl rfl⟩
  · exact ⟨released lock, .release, .inl rfl⟩

theorem conforms_recompute (m : Manager) (enabled : m.policy.disabled = false) (ttl : Duration) :
    (recompute m key value ttl).Conforms (Moves key value) (Ends key) looking := by
  refine (conforms_getOrLock m enabled).bind fun s found after => ?_
  cases s with
  | owner lock =>
    obtain rfl := after
    refine (conforms_store m enabled ttl lock).bind fun s _ after => ?_
    rcases after with rfl | rfl
    · refine (conforms_release lock).bind fun s _ after => ?_
      rcases after with rfl | rfl
      · exact rfl
      · trivial
    · exact conforms_failed _ fun _ => trivial
  | hit cached =>
    obtain rfl := after
    exact rfl
  | waiting =>
    obtain ⟨waited, rfl⟩ := after
    exact ⟨waited, rfl⟩
  | failed => exact conforms_failed _ fun _ => trivial
  | _ => cases after

end Standing

end Simulation

end AccountCache
