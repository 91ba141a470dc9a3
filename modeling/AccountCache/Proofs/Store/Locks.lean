import AccountCache.Proofs.Store.Ideal

namespace AccountCache

/-- Whether a key is one that guards another. -/
def Key.IsLock (key : String) : Prop := "lock:".toList <+: key.toList

instance (key : String) : Decidable (Key.IsLock key) :=
  inferInstanceAs (Decidable ("lock:".toList <+: key.toList))

theorem Key.isLock_lock (key : String) : IsLock (lock key) := by
  rw [IsLock, lock, String.toList_append]
  exact List.prefix_append ..

theorem Key.lock_injective {a b : String} (same : lock a = lock b) : a = b :=
  (String.append_right_inj _).1 same

theorem Bytes.ofText_injective {a b : String} (same : ofText a = ofText b) : a = b := by
  simp only [ofText, String.toUTF8_eq_toByteArray] at same
  exact String.toByteArray_inj.1 same

namespace Cache

/-- What a call says about a lock. -/
inductive LockEvent where
  | granted (moment : Instant) (lock : Lock)
  | released (lock : Lock)
  /-- A lock that its caller gave back in vain. -/
  | lost (lock : Lock)

def LockEvent.lock : LockEvent → Lock
  | granted _ lock | released lock | lost lock => lock

def Call.events (now : Instant) : (c : Call) → c.Answer → List LockEvent
  | request (.acquire ..) _, .ok (some lock) => [.granted now lock]
  | request (.release lock) _, .ok true => [.released lock]
  | request (.release lock) _, .ok false => [.lost lock]
  | _, _ => []

/-- Until when a lock is held for its owner, by a history whose latest event
comes first. It is outstanding from the call that granted it to the call
that gave it back, and no longer than its expiry. -/
def heldUntil? (lock : Lock) : List LockEvent → Option Instant
  | [] => none
  | .granted moment l :: earlier =>
    if l = lock then some (moment.after l.expiry) else heldUntil? lock earlier
  | .released l :: earlier => if l = lock then none else heldUntil? lock earlier
  | .lost _ :: earlier => heldUntil? lock earlier

def Outstanding (now : Instant) (lock : Lock) (history : List LockEvent) : Prop :=
  ∃ deadline, heldUntil? lock history = some deadline ∧ now < deadline

instance (now : Instant) (lock : Lock) (history : List LockEvent) :
    Decidable (Outstanding now lock history) :=
  decidable_of_iff ((heldUntil? lock history).any (now < ·) = true) <| by
    simp [Outstanding, Option.any_eq_true]

def Held (now : Instant) (key : String) (history : List LockEvent) : Prop :=
  ∃ lock, lock.cacheKey = key ∧ Outstanding now lock history

/-- Whether a call keeps the rules: a new lock gets a token that no lock has
had, a lock that is given back has its token to itself, and everything else
stays away from the keys of locks. -/
def Call.Allowed (history : List LockEvent) : Call → Prop
  | request (.acquire ..) token => ∀ event ∈ history, event.lock.token ≠ token
  | request (.release lock) _ => ∀ event ∈ history, event.lock.token = lock.token → event.lock = lock
  | request (.isHeld _) _ => True
  | request r _ => ∀ key ∈ r.keys, ¬Key.IsLock key
  | size | isEmpty | cleanup => True

/-- What calls on a store can lead to, and their history. -/
inductive LockReach (threshold : Nat) : List LockEvent → MemoryStore → Instant → Prop
  | start (now) : LockReach threshold [] (.withThreshold threshold now) now
  | wait {history s now later} :
      LockReach threshold history s now → now ≤ later → LockReach threshold history s later
  | call {history s now} (c : Call) (answer : c.Answer) :
      LockReach threshold history s now → now.Roomy → c.Bounded → c.Allowed history →
      (s.call now c).1 = some answer →
      LockReach threshold (c.events now answer ++ history) (s.call now c).2 now

variable {threshold : Nat} {history : List LockEvent} {s s' : MemoryStore} {now later : Instant}
  {lock other : Lock}

theorem heldUntil?_granted (moment : Instant) (lock : Lock) :
    heldUntil? lock (.granted moment lock :: history) = some (moment.after lock.expiry) :=
  if_pos rfl

theorem heldUntil?_granted_of_ne (moment : Instant) (differ : other ≠ lock) :
    heldUntil? lock (.granted moment other :: history) = heldUntil? lock history :=
  if_neg differ

theorem heldUntil?_released (lock : Lock) : heldUntil? lock (.released lock :: history) = none :=
  if_pos rfl

theorem heldUntil?_released_of_ne (differ : other ≠ lock) :
    heldUntil? lock (.released other :: history) = heldUntil? lock history :=
  if_neg differ

theorem mem_of_heldUntil? {deadline : Instant} (held : heldUntil? lock history = some deadline) :
    ∃ event ∈ history, event.lock = lock := by
  induction history with
  | nil => cases held
  | cons event earlier ih =>
    by_cases same : event.lock = lock
    · exact ⟨event, List.mem_cons_self .., same⟩
    · have before : heldUntil? lock earlier = some deadline := by
        cases event with
        | granted moment l => exact (heldUntil?_granted_of_ne moment same).symm.trans held
        | released l => exact (heldUntil?_released_of_ne same).symm.trans held
        | lost l => exact held
      obtain ⟨found, member, eq⟩ := ih before
      exact ⟨found, List.mem_cons_of_mem _ member, eq⟩

/-- The entries under the keys of locks are those of the outstanding locks,
and a token tells which lock it is. -/
structure Guards (history : List LockEvent) (s : MemoryStore) (now : Instant) : Prop where
  named : ∀ event ∈ history, ∀ event' ∈ history,
    event.lock.token = event'.lock.token → event.lock = event'.lock
  held : ∀ key e, s.live? now (Key.lock key) = some e ↔
    ∃ lock deadline, lock.cacheKey = key ∧ heldUntil? lock history = some deadline ∧ now < deadline ∧
      e = ⟨.ofText lock.token, some deadline⟩

namespace Guards

theorem start (threshold : Nat) (now : Instant) : Guards [] (.withThreshold threshold now) now where
  named := nofun
  held _ _ := ⟨nofun, nofun⟩

theorem unique (guards : Guards history s now) (first : Outstanding now lock history)
    (second : Outstanding now other history) (same : lock.cacheKey = other.cacheKey) : lock = other := by
  obtain ⟨deadline, held, before⟩ := first
  obtain ⟨deadline', held', before'⟩ := second
  have entry := (guards.held lock.cacheKey _).2 ⟨lock, deadline, rfl, held, before, rfl⟩
  have entry' := (guards.held lock.cacheKey _).2 ⟨other, deadline', same.symm, held', before', rfl⟩
  have values := congrArg Stored.value (Option.some.inj (entry.symm.trans entry'))
  obtain ⟨event, member, rfl⟩ := mem_of_heldUntil? held
  obtain ⟨event', member', rfl⟩ := mem_of_heldUntil? held'
  exact guards.named event member event' member' (Bytes.ofText_injective values)

theorem isSome_iff (guards : Guards history s now) (key : String) :
    (s.live? now (Key.lock key)).isSome = true ↔ Held now key history := by
  rw [Option.isSome_iff_exists]
  constructor
  · intro ⟨e, found⟩
    obtain ⟨lock, deadline, guarded, held, before, _⟩ := (guards.held key e).1 found
    exact ⟨lock, guarded, deadline, held, before⟩
  · intro ⟨lock, guarded, deadline, held, before⟩
    exact ⟨_, (guards.held key _).2 ⟨lock, deadline, guarded, held, before, rfl⟩⟩

theorem owns_iff (guards : Guards history s now)
    (own : ∀ event ∈ history, event.lock.token = lock.token → event.lock = lock) :
    (s.live? now lock.key).map (·.value) = some (.ofText lock.token) ↔ Outstanding now lock history := by
  rw [Option.map_eq_some_iff]
  constructor
  · intro ⟨e, found, value⟩
    obtain ⟨holder, deadline, _, held, before, rfl⟩ := (guards.held lock.cacheKey e).1 found
    obtain ⟨event, member, rfl⟩ := mem_of_heldUntil? held
    have same := own event member (Bytes.ofText_injective value)
    exact ⟨deadline, same ▸ held, before⟩
  · intro ⟨deadline, held, before⟩
    exact ⟨_, (guards.held lock.cacheKey _).2 ⟨lock, deadline, rfl, held, before, rfl⟩, rfl⟩

theorem wait (guards : Guards history s now) (order : now ≤ later) : Guards history s later where
  named := guards.named
  held key e := by
    rw [s.live?_of_le order, Option.filter_eq_some_iff, guards.held]
    constructor
    · intro ⟨⟨lock, deadline, guarded, held, _, shape⟩, fresh⟩
      rw [Bool.not_eq_true', Stored.isExpired_eq_false_iff] at fresh
      exact ⟨lock, deadline, guarded, held, fresh deadline (shape ▸ rfl), shape⟩
    · intro ⟨lock, deadline, guarded, held, before, shape⟩
      refine ⟨⟨lock, deadline, guarded, held, Instant.lt_of_le_of_lt order before, shape⟩, ?_⟩
      rw [Bool.not_eq_true', Stored.isExpired_eq_false_iff]
      intro moment eq
      rw [shape] at eq
      exact Option.some.inj eq ▸ before

theorem congr (guards : Guards history s now)
    (same : ∀ key, s'.live? now (Key.lock key) = s.live? now (Key.lock key)) :
    Guards history s' now where
  named := guards.named
  held key e := by rw [same, guards.held]

theorem grant (guards : Guards history s now) (free : s.live? now lock.key = none)
    (fresh : ∀ event ∈ history, event.lock.token ≠ lock.token) :
    Guards (.granted now lock :: history)
      (s.put lock.key ⟨.ofText lock.token, some (now.after lock.expiry)⟩) now where
  named event member event' member' same := by
    rcases List.mem_cons.1 member with rfl | old
    · rcases List.mem_cons.1 member' with rfl | old'
      · rfl
      · exact absurd same.symm (fresh event' old')
    · rcases List.mem_cons.1 member' with rfl | old'
      · exact absurd same (fresh event old)
      · exact guards.named event old event' old' same
  held key e := by
    have new : ∀ {l deadline}, heldUntil? l history = some deadline → lock ≠ l := by
      rintro l deadline held rfl
      obtain ⟨event, member, eq⟩ := mem_of_heldUntil? held
      exact fresh event member (congrArg Lock.token eq)
    rw [s.live?_put]
    by_cases same : lock.key = Key.lock key
    · rw [if_pos same]
      have guarded : lock.cacheKey = key := Key.lock_injective same
      constructor
      · intro found
        split at found
        · cases found
        · next live =>
          obtain rfl := Option.some.inj found
          rw [Bool.not_eq_true, Stored.isExpired_eq_false_iff] at live
          exact ⟨lock, _, guarded, heldUntil?_granted now lock, live _ rfl, rfl⟩
      · intro ⟨l, deadline, guarded', held, before, shape⟩
        by_cases eq : lock = l
        · subst eq
          obtain rfl := Option.some.inj ((heldUntil?_granted now lock).symm.trans held)
          have live : e.isExpired now = false := by
            rw [Stored.isExpired_eq_false_iff]
            intro moment at_
            rw [shape] at at_
            exact Option.some.inj at_ ▸ before
          rw [← shape, live, if_neg Bool.false_ne_true]
        · rw [heldUntil?_granted_of_ne now eq] at held
          have taken := (guards.held key _).2 ⟨l, deadline, guarded', held, before, rfl⟩
          rw [← same, free] at taken
          cases taken
    · rw [if_neg same, guards.held]
      have differ : ∀ {l : Lock}, l.cacheKey = key → lock ≠ l := by
        rintro l guarded rfl
        exact same (congrArg Key.lock guarded)
      constructor
      · intro ⟨l, deadline, guarded, held, rest⟩
        exact ⟨l, deadline, guarded, (heldUntil?_granted_of_ne now (new held)).trans held, rest⟩
      · intro ⟨l, deadline, guarded, held, rest⟩
        exact ⟨l, deadline, guarded, (heldUntil?_granted_of_ne now (differ guarded)).symm.trans held, rest⟩

theorem release (guards : Guards history s now) (held : Outstanding now lock history) :
    Guards (.released lock :: history) (s.drop lock.key) now where
  named event member event' member' := by
    obtain ⟨deadline, until_, _⟩ := held
    have granted := mem_of_heldUntil? until_
    have known : ∀ event ∈ LockEvent.released lock :: history,
        ∃ event' ∈ history, event'.lock = event.lock := by
      intro event member
      rcases List.mem_cons.1 member with rfl | old
      · exact granted
      · exact ⟨event, old, rfl⟩
    obtain ⟨old, before, eq⟩ := known event member
    obtain ⟨old', before', eq'⟩ := known event' member'
    rw [← eq, ← eq']
    exact guards.named old before old' before'
  held key e := by
    rw [s.live?_drop]
    by_cases same : lock.key = Key.lock key
    · rw [if_pos same]
      refine ⟨nofun, fun ⟨l, deadline, guarded, until_, before, _⟩ => ?_⟩
      have guarded' : lock.cacheKey = key := Key.lock_injective same
      by_cases eq : lock = l
      · rw [eq, heldUntil?_released] at until_
        cases until_
      · rw [heldUntil?_released_of_ne eq] at until_
        exact absurd (guards.unique held ⟨deadline, until_, before⟩ (guarded'.trans guarded.symm)) eq
    · rw [if_neg same, guards.held]
      have differ : ∀ {l : Lock}, l.cacheKey = key → lock ≠ l := by
        rintro l guarded rfl
        exact same (congrArg Key.lock guarded)
      constructor
      · intro ⟨l, deadline, guarded, until_, rest⟩
        exact ⟨l, deadline, guarded, (heldUntil?_released_of_ne (differ guarded)).trans until_, rest⟩
      · intro ⟨l, deadline, guarded, until_, rest⟩
        exact ⟨l, deadline, guarded, (heldUntil?_released_of_ne (differ guarded)).symm.trans until_, rest⟩

theorem lose (guards : Guards history s now)
    (own : ∀ event ∈ history, event.lock.token = lock.token → event.lock = lock) :
    Guards (.lost lock :: history) s now where
  named event member event' member' same := by
    rcases List.mem_cons.1 member with rfl | old
    · rcases List.mem_cons.1 member' with rfl | old'
      · rfl
      · exact (own event' old' same.symm).symm
    · rcases List.mem_cons.1 member' with rfl | old'
      · exact own event old same
      · exact guards.named event old event' old' same
  held := guards.held

theorem serve (guards : Guards history s now) (token : String) {r : Request}
    (away : ∀ key ∈ r.keys, ¬Key.IsLock key) : Guards history (s.serve now token r).2 now :=
  guards.congr fun key => MemoryStore.live?_serve token fun member => away _ member (Key.isLock_lock key)

/-- A call keeps the guard, with what it says about locks in the history.
The cases are the requests about locks, and all the others. -/
theorem call {c : Call} {answer : c.Answer} (guards : Guards history s now) (roomy : now.Roomy)
    (bound : c.Bounded) (allowed : c.Allowed history) (answered : (s.call now c).1 = some answer) :
    Guards (c.events now answer ++ history) (s.call now c).2 now := by
  have swept := guards.congr fun _ => s.live?_maybeSweep
  cases c with
  | size => exact guards
  | isEmpty => exact guards
  | cleanup => exact guards.congr fun _ => s.live?_sweep
  | request r token =>
    cases r with
    | get key => exact guards.serve token allowed
    | set e => exact guards.serve token allowed
    | setMany entries => exact guards.serve token allowed
    | delete keys => exact guards.serve token allowed
    | increment key => exact guards.serve token allowed
    | expire key lifetime => exact guards.serve token allowed
    | ttl key => exact guards.serve token allowed
    | isHeld cacheKey => exact guards.congr fun _ => s.live?_dropExpired _
    | acquire cacheKey expiry tries =>
      simp only [MemoryStore.call, MemoryStore.serve, Option.map_eq_some_iff] at answered ⊢
      obtain ⟨answer, answered, rfl⟩ := answered
      have within : (⟨cacheKey, token, expiry⟩ : Lock).expiry ≤ horizon := bound
      rw [MemoryStore.acquire_of_roomy roomy within] at answered ⊢
      split at answered
      · next free =>
        obtain rfl := Option.some.inj answered
        rw [if_pos free]
        exact swept.grant (s.live?_maybeSweep.trans free) allowed
      · next taken =>
        obtain rfl := Option.some.inj answered
        rw [if_neg taken]
        exact swept
    | release lock =>
      simp only [MemoryStore.call, MemoryStore.serve, Option.some.injEq] at answered ⊢
      subst answered
      rw [MemoryStore.release_eq]
      by_cases held : Outstanding now lock history
      · rw [if_pos ((guards.owns_iff allowed).2 held)]
        exact guards.release held
      · rw [if_neg fun owned => held ((guards.owns_iff allowed).1 owned)]
        exact guards.lose allowed

end Guards

theorem LockReach.guards (run : LockReach threshold history s now) : Guards history s now := by
  induction run with
  | start now => exact .start threshold now
  | wait _ order ih => exact ih.wait order
  | call c answer _ roomy bound allowed answered ih => exact ih.call roomy bound allowed answered

/-- At every moment of every run, at most one lock of a cache key is
outstanding; a lock is granted, and a cache key counts as held, by whether
one is; and only an outstanding lock can be given back. -/
theorem lock_safety (run : LockReach threshold history s now) (roomy : now.Roomy) :
    (∀ lock other, Outstanding now lock history → Outstanding now other history →
      lock.cacheKey = other.cacheKey → lock = other) ∧
    (∀ key expiry tries token, expiry ≤ horizon →
      (¬Held now key history → (s.call now (.request (.acquire key expiry tries) token)).1 =
        some (.ok (some ⟨key, token, expiry⟩))) ∧
      (Held now key history →
        (s.call now (.request (.acquire key expiry tries) token)).1 = some (.ok none))) ∧
    (∀ key token, ∃ answer, (s.call now (.request (.isHeld key) token)).1 = some (.ok answer) ∧
      (answer = true ↔ Held now key history)) ∧
    (∀ lock token, (Call.request (.release lock) token).Allowed history →
      (Outstanding now lock history →
        (s.call now (.request (.release lock) token)).1 = some (.ok true)) ∧
      (¬Outstanding now lock history →
        (s.call now (.request (.release lock) token)).1 = some (.ok false) ∧
        ∀ key later, now ≤ later →
          (s.call now (.request (.release lock) token)).2.live? later key = s.live? later key)) := by
  have guards := run.guards
  refine ⟨fun _ _ => guards.unique, fun key expiry tries token bound => ?_, fun key token => ?_,
    fun lock token own => ?_⟩
  · have within : (⟨key, token, expiry⟩ : Lock).expiry ≤ horizon := bound
    have free : s.live? now (Key.lock key) = none ↔ ¬Held now key history := by
      rw [← guards.isSome_iff, Option.not_isSome_iff_eq_none]
    simp only [MemoryStore.call, MemoryStore.serve, MemoryStore.acquire_of_roomy roomy within]
    constructor
    · intro none
      have empty : s.live? now (Lock.key ⟨key, token, expiry⟩) = Option.none := free.2 none
      rw [if_pos empty, Option.map_some]
    · intro held
      have taken : s.live? now (Lock.key ⟨key, token, expiry⟩) ≠ none := fun none => free.1 none held
      rw [if_neg taken, Option.map_some]
  · exact ⟨_, rfl, guards.isSome_iff key⟩
  · have owns := guards.owns_iff own
    simp only [MemoryStore.call, MemoryStore.serve, MemoryStore.release_eq]
    constructor
    · intro held
      rw [if_pos (owns.2 held)]
    · intro lost
      rw [if_neg fun owned => lost (owns.1 owned)]
      exact ⟨rfl, fun _ _ _ => rfl⟩

/-- One owner's lock has expired and another has taken it over: the first
cannot give it back. -/
theorem lock_safety_after_takeover :
    ∃ s, LockReach 1
        [.granted ⟨10000000000⟩ ⟨"k", "b", .ofSeconds 10⟩, .granted ⟨0⟩ ⟨"k", "a", .ofSeconds 10⟩] s
        ⟨10000000000⟩ ∧
      (s.call ⟨10000000000⟩ (.request (.release ⟨"k", "a", .ofSeconds 10⟩) "")).1 = some (.ok false) ∧
      (s.call ⟨10000000000⟩ (.request (.release ⟨"k", "b", .ofSeconds 10⟩) "")).1 = some (.ok true) := by
  have first := LockReach.call (.request (.acquire "k" (.ofSeconds 10) 1) "a")
    (.ok (some ⟨"k", "a", .ofSeconds 10⟩)) (.start ⟨0⟩ : LockReach 1 _ _ _) (by decide) (by decide) nofun rfl
  have second := LockReach.call (.request (.acquire "k" (.ofSeconds 10) 1) "b")
    (.ok (some ⟨"k", "b", .ofSeconds 10⟩)) (first.wait (by decide : (⟨0⟩ : Instant) ≤ ⟨10000000000⟩)) (by decide)
    (by decide) (by simp [Call.Allowed, Call.events, LockEvent.lock]) rfl
  have safety := (lock_safety second (by decide)).2.2.2
  have stale := (safety ⟨"k", "a", .ofSeconds 10⟩ "" (by simp [Call.Allowed, Call.events, LockEvent.lock])).2
    (by decide)
  have held := (safety ⟨"k", "b", .ofSeconds 10⟩ "" (by simp [Call.Allowed, Call.events, LockEvent.lock])).1
    (by decide)
  exact ⟨_, second, stale.1, held⟩

end Cache

end AccountCache
