import AccountCache.Proofs.Interleaving.Interleaved
import AccountCache.Proofs.Store.Locks

namespace AccountCache

open Cache (Stored MemoryStore Request)

theorem Key.lock_ne (key : String) : lock key ≠ key := by
  intro same
  have lengths := congrArg (fun s => s.toList.length) same
  simp only [lock, String.toList_append, List.length_append] at lengths
  have five : "lock:".toList.length = 5 := by decide
  omega

namespace Simulation

namespace Backend

def locks? : Backend → Option MemoryStore
  | memory values locks => some (locks.getD values)
  | redis _ => none

end Backend

namespace World

variable (w : World) {w' : World} {key : String}

/-- The live entry under a key. It is all that anyone can learn of an entry,
be the locks in the same store or in another one. -/
def cached? (key : String) : Option Stored := w.backend.values?.bind (·.live? w.clock key)

/-- The live entry of the lock of a key. -/
def guard? (key : String) : Option Stored := w.backend.locks?.bind (·.live? w.clock (Key.lock key))

/-- Whether the stores are in memory and no request to them fails. -/
structure Reliable : Prop where
  memory : ∃ values locks, w.backend = .memory values locks
  faultless : ∀ r, w.cacheFault r = none

/-- Whether nothing ends until a moment. -/
def Lasts (later : Instant) : Prop :=
  ∀ key, (w.advanceTo later).cached? key = w.cached? key ∧ (w.advanceTo later).guard? key = w.guard? key

variable {w}

theorem Reliable.advanceTo (reliable : w.Reliable) (later : Instant) : (w.advanceTo later).Reliable :=
  ⟨reliable.memory, reliable.faultless⟩

/-- As time passes, what was live stays so until its deadline, and nothing
else becomes live. Locks and entries alike come to their end only in this
way or by a request. -/
theorem cached?_advanceTo (w : World) (later : Instant) (key : String) :
    (w.advanceTo later).cached? key = (w.cached? key).filter fun e => !e.isExpired (w.advanceTo later).clock := by
  show w.backend.values?.bind _ = (w.backend.values?.bind _).filter _
  cases w.backend.values? with
  | none => rfl
  | some values =>
    have order : w.clock ≤ (w.advanceTo later).clock := Instant.le_max_left ..
    exact values.live?_of_le order

theorem cached?_of_advanceTo {later : Instant} {e : Stored} (live : (w.advanceTo later).cached? key = some e) :
    w.cached? key = some e := by
  rw [cached?_advanceTo] at live
  exact (Option.filter_eq_some_iff.1 live).1

theorem Answers.tables_eq {r : Request} {answer : (Effect.cache r).Answer}
    (answers : w.Answers (.cache r) answer w') : w'.tables = w.tables := by
  cases answers with
  | cache _ =>
    rw [serveCache]
    cases w.cacheFault r with
    | some e => rfl
    | none => rfl

theorem Answers.of_database {r : Database.Request} {answer : (Effect.database r).Answer}
    (answers : w.Answers (.database r) answer w') :
    (w.Reliable → w'.Reliable) ∧ (∀ key, w'.cached? key = w.cached? key) ∧
      (((∃ e, answer = .error e) ∧ w'.tables = w.tables) ∨
        ∃ now, w.tables.serve now r = (answer, w'.tables)) := by
  cases answers with
  | database _ =>
    cases w.databaseFault r with
    | some e => exact ⟨id, fun _ => rfl, .inl ⟨⟨e, rfl⟩, rfl⟩⟩
    | none => exact ⟨fun reliable => ⟨reliable.memory, reliable.faultless⟩, fun _ => rfl, .inr ⟨_, rfl⟩⟩

/-- A request about entries is answered by the store of the entries, and
locks are left alone that it does not name. -/
theorem Reliable.answers_values (reliable : w.Reliable) {r : Request} {answer : (Effect.cache r).Answer}
    (answers : w.Answers (.cache r) answer w') (kind : r.isAboutLocks = false) :
    w'.Reliable ∧ (∀ key, Key.lock key ∉ r.keys → w'.guard? key = w.guard? key) ∧
      ∃ values : MemoryStore, (∀ key, w.cached? key = values.live? w.clock key) ∧
        (values.serve w.clock w.token r).1 = some answer ∧
        ∀ key, w'.cached? key = (values.serve w.clock w.token r).2.live? w.clock key := by
  obtain ⟨⟨values, locks, memory⟩, faultless⟩ := reliable
  cases answers with
  | cache answered =>
    rw [serveCache, faultless r] at answered ⊢
    cases locks with
    | none =>
      simp only [memory, Backend.serve] at answered ⊢
      refine ⟨⟨⟨_, _, rfl⟩, faultless⟩, fun key away => ?_, values, fun key => ?_, answered, fun key => rfl⟩
      · simp only [guard?, memory]
        exact MemoryStore.live?_serve w.token away
      · simp only [cached?, memory]
        rfl
    | some locks =>
      simp only [memory, Backend.serve, kind] at answered ⊢
      refine ⟨⟨⟨_, _, rfl⟩, faultless⟩, fun key _ => ?_, values, fun key => ?_, answered, fun key => rfl⟩
      · simp only [guard?, memory]
        rfl
      · simp only [cached?, memory]
        rfl

/-- A request about locks is answered by the store of the locks, and entries
are left alone that it does not name. -/
theorem Reliable.answers_locks (reliable : w.Reliable) {r : Request} {answer : (Effect.cache r).Answer}
    (answers : w.Answers (.cache r) answer w') (kind : r.isAboutLocks = true) :
    w'.Reliable ∧ (∀ key, key ∉ r.keys → w'.cached? key = w.cached? key) ∧
      ∃ locks : MemoryStore, (∀ key, w.guard? key = locks.live? w.clock (Key.lock key)) ∧
        (locks.serve w.clock w.token r).1 = some answer ∧
        ∀ key, w'.guard? key = (locks.serve w.clock w.token r).2.live? w.clock (Key.lock key) := by
  obtain ⟨⟨values, locks, memory⟩, faultless⟩ := reliable
  cases answers with
  | cache answered =>
    rw [serveCache, faultless r] at answered ⊢
    cases locks with
    | none =>
      simp only [memory, Backend.serve] at answered ⊢
      refine ⟨⟨⟨_, _, rfl⟩, faultless⟩, fun key away => ?_, values, fun key => ?_, answered, fun key => rfl⟩
      · simp only [cached?, memory]
        exact MemoryStore.live?_serve w.token away
      · simp only [guard?, memory]
        rfl
    | some locks =>
      simp only [memory, Backend.serve, kind] at answered ⊢
      refine ⟨⟨⟨_, _, rfl⟩, faultless⟩, fun key _ => ?_, locks, fun key => ?_, answered, fun key => rfl⟩
      · simp only [cached?, memory]
        rfl
      · simp only [guard?, memory]
        rfl

theorem Reliable.cache (reliable : w.Reliable) {r : Request} {answer : (Effect.cache r).Answer}
    (answers : w.Answers (.cache r) answer w') : w'.Reliable := by
  cases kind : r.isAboutLocks with
  | false => exact (reliable.answers_values answers kind).1
  | true => exact (reliable.answers_locks answers kind).1

/-- Stores that do not fail stay so, whatever is asked. -/
theorem Reliable.answered (reliable : w.Reliable) {e : Effect} {answer : e.Answer} (answers : w.Answers e answer w') :
    w'.Reliable := by
  cases answers with
  | cache answered => exact reliable.cache (.cache answered)
  | database r => exact (Answers.database r).of_database.1 reliable
  | _ => exact reliable

theorem Reliable.isIncrement_of_error (reliable : w.Reliable) {r : Request} {e : Cache.Error}
    (answers : w.Answers (.cache r) (.error e) w') : r.isIncrement = true := by
  cases kind : r.isAboutLocks with
  | false =>
    obtain ⟨_, _, values, _, answered, _⟩ := reliable.answers_values answers kind
    exact MemoryStore.serve_error answered
  | true =>
    obtain ⟨_, _, locks, _, answered, _⟩ := reliable.answers_locks answers kind
    exact MemoryStore.serve_error answered

theorem Reliable.get (reliable : w.Reliable) {answer : (Effect.cache (.get key)).Answer}
    (answers : w.Answers (.cache (.get key)) answer w') :
    w'.Reliable ∧ answer = .ok ((w.cached? key).map (·.value)) ∧ (∀ k, w'.cached? k = w.cached? k) ∧
      w'.guard? key = w.guard? key := by
  obtain ⟨reliable', guards, values, view, answered, view'⟩ := reliable.answers_values answers rfl
  simp only [MemoryStore.serve, MemoryStore.get, Option.some.injEq] at answered view'
  refine ⟨reliable', ?_, fun k => ?_, guards key (by simp [Request.keys, Key.lock_ne])⟩
  · rw [view, answered]
  · rw [view', view, MemoryStore.live?_dropExpired]

theorem Reliable.set (reliable : w.Reliable) {e : Cache.Entry} {answer : (Effect.cache (.set e)).Answer}
    (answers : w.Answers (.cache (.set e)) answer w') (positive : e.seconds ≠ 0) :
    w'.Reliable ∧ answer = .ok () ∧ (∀ k, e.key ≠ k → w'.cached? k = w.cached? k) ∧
      w'.cached? e.key = some (MemoryStore.written w.clock e) ∧ w'.guard? e.key = w.guard? e.key := by
  obtain ⟨reliable', guards, values, view, answered, view'⟩ := reliable.answers_values answers rfl
  simp only [MemoryStore.serve, MemoryStore.set] at answered view'
  cases wrote : (values.maybeSweep w.clock).insert? w.clock e with
  | none => simp [wrote] at answered
  | some values' =>
    simp only [wrote, Option.map_some, Option.some.injEq] at answered view'
    obtain rfl := MemoryStore.eq_of_insert? wrote
    refine ⟨reliable', answered.symm, fun k differ => ?_, ?_,
      guards e.key (by simp [Request.keys, Key.lock_ne])⟩
    · rw [view', view, MemoryStore.live?_put, if_neg differ, MemoryStore.live?_maybeSweep]
    · rw [view', MemoryStore.live?_put, if_pos rfl, MemoryStore.isExpired_written positive]
      rfl

theorem Reliable.setMany (reliable : w.Reliable) {entries : List Cache.Entry}
    {answer : (Effect.cache (.setMany entries)).Answer} {e : Stored}
    (answers : w.Answers (.cache (.setMany entries)) answer w') (live : w'.cached? key = some e) :
    (w.cached? key = some e ∧ ∀ x ∈ entries, x.key ≠ key) ∨
      ∃ x ∈ entries, x.key = key ∧ e = MemoryStore.written w.clock x := by
  obtain ⟨_, _, values, view, answered, view'⟩ := reliable.answers_values answers rfl
  simp only [MemoryStore.serve, MemoryStore.setMany] at answered view'
  obtain ⟨_, wrote, _⟩ := Option.map_eq_some_iff.1 answered
  rw [view'] at live
  have origin := MemoryStore.live?_of_insertAll wrote live
  rwa [MemoryStore.live?_maybeSweep, ← view] at origin

theorem Reliable.delete (reliable : w.Reliable) {keys : List String}
    {answer : (Effect.cache (.delete keys)).Answer} (answers : w.Answers (.cache (.delete keys)) answer w')
    (key : String) : w'.cached? key = if key ∈ keys then none else w.cached? key := by
  obtain ⟨_, _, values, view, _, view'⟩ := reliable.answers_values answers rfl
  rw [view', view, MemoryStore.serve, MemoryStore.live?_delete]

theorem Reliable.isHeld (reliable : w.Reliable) {answer : (Effect.cache (.isHeld key)).Answer}
    (answers : w.Answers (.cache (.isHeld key)) answer w') :
    w'.Reliable ∧ (∃ held, answer = .ok held) ∧ (∀ k, k ≠ Key.lock key → w'.cached? k = w.cached? k) ∧
      w'.guard? key = w.guard? key := by
  obtain ⟨reliable', entries, locks, view, answered, view'⟩ := reliable.answers_locks answers rfl
  simp only [MemoryStore.serve, MemoryStore.isHeld, Option.some.injEq] at answered view'
  refine ⟨reliable', ⟨_, answered.symm⟩, fun k differ => entries k (by simpa [Request.keys] using differ), ?_⟩
  rw [view', view, MemoryStore.live?_dropExpired]

theorem Reliable.acquire (reliable : w.Reliable) {expiry : Duration} {tries : Nat}
    {answer : (Effect.cache (.acquire key expiry tries)).Answer}
    (answers : w.Answers (.cache (.acquire key expiry tries)) answer w') (positive : expiry.nanos ≠ 0) :
    w'.Reliable ∧ (∀ k, k ≠ Key.lock key → w'.cached? k = w.cached? k) ∧
      ((∃ guard, answer = .ok none ∧ w.guard? key = some guard ∧ w'.guard? key = some guard) ∨
        ∃ lock guard, answer = .ok (some lock) ∧ lock.cacheKey = key ∧ w.guard? key = none ∧
          w'.guard? key = some guard ∧ guard.value = .ofText lock.token) := by
  obtain ⟨reliable', entries, locks, view, answered, view'⟩ := reliable.answers_locks answers rfl
  refine ⟨reliable', fun k differ => entries k (by simpa [Request.keys] using differ), ?_⟩
  rw [view, view']
  generalize w.token = token at answered ⊢
  simp only [MemoryStore.serve, MemoryStore.acquire, Cache.Lock.key, MemoryStore.live?_maybeSweep]
    at answered ⊢
  cases found : locks.live? w.clock (Key.lock key) with
  | some guard =>
    simp only [found, Option.map_some, Option.some.injEq] at answered ⊢
    exact .inl ⟨guard, answered.symm, rfl, locks.live?_maybeSweep.trans found⟩
  | none =>
    cases ends : w.clock.add? expiry with
    | none => simp [found, ends] at answered
    | some deadline =>
      have later : w.clock < deadline := Instant.lt_of_add? ends positive
      have fresh : Stored.isExpired ⟨.ofText token, some deadline⟩ w.clock = false := by
        rw [Stored.isExpired_eq_false_iff]
        rintro _ ⟨⟩
        exact later
      simp only [found, ends, Option.map_some, Option.some.injEq, MemoryStore.live?_put, if_true,
        fresh] at answered ⊢
      exact .inr ⟨⟨key, token, expiry⟩, ⟨.ofText token, some deadline⟩, answered.symm, rfl, trivial, rfl, rfl⟩

theorem Reliable.release (reliable : w.Reliable) {lock : Cache.Lock}
    {answer : (Effect.cache (.release lock)).Answer}
    (answers : w.Answers (.cache (.release lock)) answer w') :
    w'.Reliable ∧ (∀ k, k ≠ lock.key → w'.cached? k = w.cached? k) ∧ (∃ gone, answer = .ok gone) ∧
      ((w.guard? lock.cacheKey).map (·.value) = some (.ofText lock.token) → w'.guard? lock.cacheKey = none) := by
  obtain ⟨reliable', entries, locks, view, answered, view'⟩ := reliable.answers_locks answers rfl
  simp only [MemoryStore.serve, MemoryStore.release_eq, Option.some.injEq] at answered view'
  refine ⟨reliable', fun k differ => entries k (by simpa [Request.keys] using differ),
    ⟨_, answered.symm⟩, fun owns => ?_⟩
  rw [view] at owns
  have owns' : (locks.live? w.clock lock.key).map (·.value) = some (.ofText lock.token) := owns
  rw [view', if_pos owns', MemoryStore.live?_drop]
  exact if_pos rfl

end World

end Simulation

end AccountCache
