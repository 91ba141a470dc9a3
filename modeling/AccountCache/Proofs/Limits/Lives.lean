import AccountCache.Proofs.Limits.Usage
import AccountCache.Proofs.Locking.Leaks
import AccountCache.Proofs.Servers.Counters

namespace AccountCache

open Cache (longest Stored MemoryStore)

namespace Cache

/-- Whether a request may end the life of an entry or give it a new one. -/
def Request.Renews (key : String) : Request → Prop
  | get _ | increment _ | ttl _ | isHeld _ => False
  | r => key ∈ r.keys

/-- Whether a request may put another value under a key. -/
def Request.Alters (key : String) : Request → Prop
  | get _ | delete _ | expire .. | ttl _ | release _ | isHeld _ => False
  | r => key ∈ r.keys

/-- Whether values are of some kind for which it does not matter that they
are counted up. A counter that has come to a number is of such a kind, and
so is any value whatever. -/
def CountsUp (worth : Bytes → Prop) : Prop :=
  ∀ bytes n, worth bytes → MemoryStore.counter? bytes = some n → n < maxInt64 → worth (.ofText (toString (n + 1)))

/-- Whether a value is a counter that has come to some number. -/
def HasCounted (number : Int) (bytes : Bytes) : Prop := ∃ n, MemoryStore.counter? bytes = some n ∧ number ≤ n

theorem countsUp_any : CountsUp fun _ => True := fun _ _ _ _ _ => trivial

theorem counter?_toString {n : Int} (lower : minInt64 ≤ n) (upper : n ≤ maxInt64) :
    MemoryStore.counter? (.ofText (toString n)) = some n := by
  rw [MemoryStore.counter?_ofText, int64?_toString lower upper]

theorem countsUp_hasCounted (number : Int) : CountsUp (HasCounted number) := by
  rintro bytes n ⟨m, counted, reached⟩ same small
  obtain rfl := Option.some.inj (counted.symm.trans same)
  have bounds := MemoryStore.counter?_bounds counted
  exact ⟨m + 1, counter?_toString (by omega) (by omega), by omega⟩

/-- A counter is not the mark for a missing row, so that it is read
as a number. -/
theorem attempts?_ofBytes {bytes : Bytes} {n : Int} (counted : MemoryStore.counter? bytes = some n) :
    Accounts.attempts? (some (.ofBytes bytes)) = some n := by
  have row : bytes ≠ nilBytes := by
    rintro rfl
    cases counted
  rw [Cached.ofBytes, if_neg row]
  exact counted

namespace MemoryStore

variable {s : MemoryStore} {now : Instant} {key token : String} {e : Stored} {r : Request}

theorem isExpired_of_live? (live : s.live? now key = some e) (value : Bytes) :
    Stored.isExpired ⟨value, e.deadline⟩ now = false := by
  have fresh : e.isExpired now = false := Bool.not_eq_eq_eq_not.1 (Option.filter_eq_some_iff.1 live).2
  exact fresh

theorem expire_of_live {ttl : Duration} {there : Bool} (live : s.live? now key = some e)
    (answered : (s.expire now key ttl).1 = some there) : there = true ∧ (ttl.seconds ≠ 0 →
      (s.expire now key ttl).2.live? now key = some ⟨e.value, some (now.after (.ofSeconds ttl.seconds))⟩) := by
  simp only [expire, live] at answered ⊢
  by_cases short : ttl.seconds = 0
  · simp only [if_pos short] at answered
    exact ⟨(Option.some.inj answered).symm, fun positive => absurd short positive⟩
  · cases ends : now.add? (.ofSeconds ttl.seconds) with
    | none => simp [short, ends] at answered
    | some deadline =>
      have later : now < deadline := by
        refine Instant.lt_of_add? ends ?_
        simp only [Duration.ofSeconds, Duration.nanos_ofNanos, Duration.maxNanos]
        omega
      have fresh : Stored.isExpired ⟨e.value, some deadline⟩ now = false := by
        rw [Stored.isExpired_eq_false_iff]
        rintro _ ⟨⟩
        exact later
      simp only [if_neg short, ends, Option.some.injEq] at answered ⊢
      rw [live?_put, if_pos rfl, fresh, ← Instant.eq_after_of_add? ends]
      exact ⟨answered.symm, fun _ => rfl⟩

/-- A counter that is not there starts at one, and has no end. -/
theorem increment_of_missing (missing : s.live? now key = none) : (s.increment now key).1 = .ok 1 ∧
    (s.increment now key).2.live? now key = some ⟨.ofText "1", none⟩ := by
  have before : (s.maybeSweep now).live? now key = none := s.live?_maybeSweep.trans missing
  simp only [increment, before, live?_put, if_true]
  exact ⟨trivial, rfl⟩

theorem increment_of_counter {n : Int} (live : s.live? now key = some e) (counted : counter? e.value = some n)
    (small : n < maxInt64) : (s.increment now key).1 = .ok (n + 1) ∧
      (s.increment now key).2.live? now key = some ⟨.ofText (toString (n + 1)), e.deadline⟩ := by
  have before : (s.maybeSweep now).live? now key = some e := s.live?_maybeSweep.trans live
  have notGreatest : n ≠ maxInt64 := Int.ne_of_lt small
  simp only [increment, before, counted, if_neg notGreatest, live?_put, if_true, isExpired_of_live? live]
  exact ⟨trivial, rfl⟩

theorem live?_increment_of_live (live : s.live? now key = some e) : ∃ value,
    (s.increment now key).2.live? now key = some ⟨value, e.deadline⟩ ∧
      (value = e.value ∨ ∃ n, counter? e.value = some n ∧ n < maxInt64 ∧ value = .ofText (toString (n + 1))) := by
  have before : (s.maybeSweep now).live? now key = some e := s.live?_maybeSweep.trans live
  cases counted : counter? e.value with
  | none =>
    simp only [increment, before, counted]
    exact ⟨e.value, rfl, .inl rfl⟩
  | some n =>
    by_cases greatest : n = maxInt64
    · simp only [increment, before, counted, if_pos greatest]
      exact ⟨e.value, rfl, .inl rfl⟩
    · have bounds := counter?_bounds counted
      have small : n < maxInt64 := by omega
      exact ⟨_, (increment_of_counter live counted small).2, .inr ⟨n, rfl, small, rfl⟩⟩

/-- A live entry that a request neither drops nor writes anew keeps its
deadline, and its value up to counting. Sweeps and other keys do not
matter to it. -/
theorem live?_serve_of_not_renews (live : s.live? now key = some e) (lasts : ¬r.Renews key) : ∃ value,
    (s.serve now token r).2.live? now key = some ⟨value, e.deadline⟩ ∧
      (value = e.value ∨ ∃ n, counter? e.value = some n ∧ n < maxInt64 ∧ value = .ofText (toString (n + 1))) := by
  have same : (s.serve now token r).2.live? now key = s.live? now key → ∃ value,
      (s.serve now token r).2.live? now key = some ⟨value, e.deadline⟩ ∧ (value = e.value ∨
        ∃ n, counter? e.value = some n ∧ n < maxInt64 ∧ value = .ofText (toString (n + 1))) :=
    fun kept => ⟨e.value, kept.trans live, .inl rfl⟩
  by_cases named : key ∈ r.keys
  · cases r with
    | get at_ => exact same (s.live?_dropExpired at_)
    | ttl at_ => exact same rfl
    | isHeld cacheKey => exact same (s.live?_dropExpired _)
    | increment at_ =>
      obtain rfl := List.mem_singleton.1 named
      exact live?_increment_of_live live
    | _ => exact absurd named lasts
  · exact same (live?_serve token named)

/-- What is live after a request that does not write it has the value
that was there. -/
theorem live?_of_serve_of_not_alters (leaves : ¬r.Alters key)
    (live : (s.serve now token r).2.live? now key = some e) :
    ∃ before, s.live? now key = some before ∧ before.value = e.value := by
  by_cases named : key ∈ r.keys
  · cases r with
    | get at_ => exact ⟨e, (s.live?_dropExpired at_).symm.trans live, rfl⟩
    | delete keys =>
      have gone : key ∈ keys := named
      rw [serve, live?_delete, if_pos gone] at live
      cases live
    | expire at_ ttl => exact live?_of_expire live
    | ttl at_ => exact ⟨e, live, rfl⟩
    | release lock =>
      simp only [serve, release] at live
      split at live
      · exact ⟨e, live?_of_drop live, rfl⟩
      · exact ⟨e, live, rfl⟩
    | isHeld cacheKey => exact ⟨e, (s.live?_dropExpired _).symm.trans live, rfl⟩
    | _ => exact absurd named leaves
  · exact ⟨e, (live?_serve token named).symm.trans live, rfl⟩

theorem live?_insertAll_of_last {before after : List Entry} {entry : Entry} (positive : entry.seconds ≠ 0)
    (last : ∀ x ∈ after, x.key ≠ entry.key) (wrote : (s.insertAll now (before ++ entry :: after)).1 = some ()) :
    (s.insertAll now (before ++ entry :: after)).2.live? now entry.key = some (written now entry) := by
  induction before generalizing s with
  | nil =>
    rw [List.nil_append, insertAll] at wrote ⊢
    cases step : s.insert? now entry with
    | none =>
      rw [step] at wrote
      cases wrote
    | some s' =>
      simp only
      rw [live?_insertAll last, eq_of_insert? step, live?_put, if_pos rfl, isExpired_written positive]
      rfl
  | cons first rest ih =>
    rw [List.cons_append, insertAll] at wrote ⊢
    cases step : s.insert? now first with
    | none =>
      rw [step] at wrote
      cases wrote
    | some s' =>
      rw [step] at wrote
      exact ih wrote

end MemoryStore

end Cache

def Effect.Renews (key : String) : Effect → Prop
  | cache r => r.Renews key
  | _ => False

def Effect.Alters (key : String) : Effect → Prop
  | cache r => r.Alters key
  | _ => False

namespace Simulation.World

variable {w w' : World} {around : Surroundings} {key : String} {deadline : Instant} {worth : Bytes → Prop} {n : Nat}

/-- Whether there is a live entry of some worth under a key that ends
at a moment. -/
def Lives (w : World) (key : String) (deadline : Instant) (worth : Bytes → Prop) : Prop :=
  ∃ e, w.cached? key = some e ∧ e.deadline = some deadline ∧ worth e.value

theorem Reliable.answers_entries (reliable : w.Reliable) {r : Cache.Request} {answer : (Effect.cache r).Answer}
    (answers : w.Answers (.cache r) answer w') :
    (∀ key, w'.cached? key = w.cached? key) ∨
      ∃ values : MemoryStore, (∀ key, w.cached? key = values.live? w.clock key) ∧
        (values.serve w.clock w.token r).1 = some answer ∧
        ∀ key, w'.cached? key = (values.serve w.clock w.token r).2.live? w.clock key := by
  cases about : r.isAboutLocks with
  | false => exact .inr (reliable.answers_values answers about).2.2
  | true =>
    obtain ⟨⟨values, locks, memory⟩, faultless⟩ := reliable
    cases answers with
    | cache answered =>
      rw [serveCache, faultless r] at answered ⊢
      cases locks with
      | none =>
        simp only [memory, Backend.serve] at answered ⊢
        exact .inr ⟨values, fun key => by rw [cached?, memory]; rfl, answered, fun key => rfl⟩
      | some locks =>
        simp only [memory, Backend.serve, about, if_true]
        exact .inl fun key => by rw [cached?, cached?, memory]; rfl

/-- An entry lives on until its deadline. -/
theorem Lives.wait (lives : w.Lives key deadline worth) {later : Instant}
    (early : (w.advanceTo later).clock < deadline) : (w.advanceTo later).Lives key deadline worth := by
  obtain ⟨e, live, ends, worthy⟩ := lives
  have fresh : e.isExpired (w.advanceTo later).clock = false := by
    rw [Stored.isExpired_eq_false_iff, ends]
    rintro _ ⟨⟩
    exact early
  refine ⟨e, ?_, ends, worthy⟩
  rw [cached?_advanceTo, live, Option.filter_some, fresh]
  rfl

/-- An entry lives on that is neither dropped nor written anew, whatever
the step is. -/
theorem Lives.meets (lives : w.Lives key deadline worth) (counts : Cache.CountsUp worth) (reliable : w.Reliable)
    {e : Effect} {answer : e.Answer} (meets : w.Meets around e answer w') (lasts : ¬e.Renews key) :
    w'.Lives key deadline worth := by
  cases meets with
  | cache number answers =>
    obtain ⟨e, live, ends, worthy⟩ := lives
    rcases (reliable.numbered number).answers_entries answers with same | ⟨values, view, _, view'⟩
    · exact ⟨e, (same key).trans live, ends, worthy⟩
    · obtain ⟨value, live', valued⟩ :=
        MemoryStore.live?_serve_of_not_renews ((view key).symm.trans live) lasts
      refine ⟨⟨value, e.deadline⟩, (view' key).trans live', ends, ?_⟩
      rcases valued with rfl | ⟨n, counted, small, rfl⟩
      · exact worthy
      · exact counts _ n worthy counted small
  | refused | database | wallClock | quiet => exact lives

/-- What is live after a step that does not write it has the value
that was there. -/
theorem Reliable.worth_of_meets (reliable : w.Reliable) {e : Effect} {answer : e.Answer}
    (meets : w.Meets around e answer w') (leaves : ¬e.Alters key)
    (worthy : ∀ e, w.cached? key = some e → worth e.value) : ∀ e, w'.cached? key = some e → worth e.value := by
  cases meets with
  | cache number answers =>
    intro e live
    rcases (reliable.numbered number).answers_entries answers with same | ⟨values, view, _, view'⟩
    · exact worthy e ((same key).symm.trans live)
    · obtain ⟨before, live, same⟩ :=
        MemoryStore.live?_of_serve_of_not_alters leaves ((view' key).symm.trans live)
      exact same ▸ worthy before ((view key).trans live)
  | refused | database | wallClock | quiet => exact worthy

/-- A granted request of the cache was answered by the store of the entries,
unless it was about locks. -/
theorem Reliable.granted (reliable : w.Reliable) {r : Cache.Request} {value : r.Result}
    (meets : w.Meets around (.cache r) (.ok value) w') (entries : r.isAboutLocks = false) :
    ∃ (token : String) (values : MemoryStore), (∀ key, w.cached? key = values.live? w.clock key) ∧
      (values.serve w.clock token r).1 = some (.ok value) ∧
      ∀ key, w'.cached? key = (values.serve w.clock token r).2.live? w.clock key := by
  cases meets with
  | cache number answers => exact ⟨_, ((reliable.numbered number).answers_values answers entries).2.2⟩
  | quiet quiet => cases quiet

theorem Reliable.lives_of_expire (reliable : w.Reliable) {ttl : Duration}
    (meets : w.Meets around (.cache (.expire key ttl)) (.ok true) w') (positive : ttl.seconds ≠ 0)
    (worthy : ∀ e, w.cached? key = some e → worth e.value) :
    w'.Lives key (w.clock.after (.ofSeconds ttl.seconds)) worth := by
  obtain ⟨token, values, view, answered, view'⟩ := reliable.granted meets rfl
  obtain ⟨there, served, told⟩ := Option.map_eq_some_iff.1 answered
  cases found : values.live? w.clock key with
  | none =>
    simp only [found, Option.some.injEq] at served
    rw [← served] at told
    cases told
  | some e =>
    have prolonged := (MemoryStore.expire_of_live found served).2 positive
    exact ⟨_, (view' key).trans prolonged, rfl, worthy e ((view key).trans found)⟩

/-- Who gives an entry a life and no value prolongs it. -/
theorem Reliable.lives_of_prolongs (reliable : w.Reliable) {e : Effect} {answer : e.Answer}
    (gives : Gives key n e answer) (leaves : ¬e.Alters key) (meets : w.Meets around e answer w') (positive : n ≠ 0)
    (worthy : ∀ e, w.cached? key = some e → worth e.value) : w'.Lives key (w.clock.after (.ofSeconds n)) worth := by
  cases gives with
  | set own long => exact absurd (List.mem_singleton.2 own.symm) leaves
  | setMany own long last =>
    exact absurd (List.mem_map.2 ⟨_, List.mem_append_right _ (List.mem_cons_self ..), own⟩) leaves
  | expire long =>
    subst long
    exact reliable.lives_of_expire meets positive worthy

/-- Who was granted to give a key a life of some seconds leaves an entry
that ends after them. -/
theorem Reliable.lives_of_gives (reliable : w.Reliable) {e : Effect} {answer : e.Answer} (gives : Gives key n e answer)
    (meets : w.Meets around e answer w') (positive : n ≠ 0) :
    w'.Lives key (w.clock.after (.ofSeconds n)) fun _ => True := by
  cases gives with
  | @set entry own long =>
    subst own long
    obtain ⟨token, values, view, answered, view'⟩ := reliable.granted meets rfl
    simp only [MemoryStore.serve, MemoryStore.set] at answered view'
    cases wrote : (values.maybeSweep w.clock).insert? w.clock entry with
    | none => simp [wrote] at answered
    | some values' =>
      simp only [wrote] at view'
      obtain rfl := MemoryStore.eq_of_insert? wrote
      have here := view' entry.key
      rw [MemoryStore.live?_put, if_pos rfl, MemoryStore.isExpired_written positive] at here
      exact ⟨_, here, rfl, trivial⟩
  | @setMany before after entry own long last =>
    subst own long
    obtain ⟨token, values, view, answered, view'⟩ := reliable.granted meets rfl
    simp only [MemoryStore.serve, MemoryStore.setMany] at answered view'
    obtain ⟨_, wrote, _⟩ := Option.map_eq_some_iff.1 answered
    exact ⟨_, (view' entry.key).trans (MemoryStore.live?_insertAll_of_last positive last wrote), rfl, trivial⟩
  | expire long =>
    subst long
    exact reliable.lives_of_expire meets positive fun _ _ => trivial

/-- A counter has come to what whoever counted it up was told. -/
theorem Reliable.hasCounted_of_counts (reliable : w.Reliable) {e : Effect} {answer : e.Answer} {number : Int}
    (counts : Counts key number e answer) (meets : w.Meets around e answer w') :
    ∀ e, w'.cached? key = some e → Cache.HasCounted number e.value := by
  intro e live
  cases counts
  obtain ⟨token, values, view, answered, view'⟩ := reliable.granted meets rfl
  have served : (values.increment w.clock key).1 = .ok number := Option.some.inj answered
  have after : (values.increment w.clock key).2.live? w.clock key = some e := (view' key).symm.trans live
  cases found : values.live? w.clock key with
  | none =>
    obtain ⟨first, started⟩ := MemoryStore.increment_of_missing found
    obtain rfl := Except.ok.inj (served.symm.trans first)
    obtain rfl := Option.some.inj (after.symm.trans started)
    exact ⟨1, Cache.counter?_toString (n := 1) (by decide) (by decide), Int.le_refl _⟩
  | some before =>
    have kept : (values.maybeSweep w.clock).live? w.clock key = some before := values.live?_maybeSweep.trans found
    cases counted : MemoryStore.counter? before.value with
    | none => simp [MemoryStore.increment, kept, counted] at served
    | some n =>
      by_cases greatest : n = maxInt64
      · simp [MemoryStore.increment, kept, counted, greatest] at served
      · have bounds := MemoryStore.counter?_bounds counted
        obtain ⟨next, up⟩ := MemoryStore.increment_of_counter found counted (by omega)
        obtain rfl := Except.ok.inj (served.symm.trans next)
        obtain rfl := Option.some.inj (after.symm.trans up)
        exact ⟨n + 1, Cache.counter?_toString (by omega) (by omega), Int.le_refl _⟩

/-- An entry is told to be live whose lifetime is counted right. -/
theorem Lives.ttl (lives : w.Lives key deadline worth) (reliable : w.Reliable) (steady : ∀ r, ¬around.refuses r)
    (short : deadline ≤ w.clock.after (.ofSeconds longest)) {answer : (Effect.cache (.ttl key)).Answer}
    (meets : w.Meets around (.cache (.ttl key)) answer w') :
    ∃ seconds, answer = .ok seconds ∧ (Cache.Lifetime.ofSeconds seconds).isLive = true := by
  obtain ⟨e, live, ends, _⟩ := lives
  cases meets with
  | cache number answers =>
    obtain ⟨_, _, values, view, answered, _⟩ := (reliable.numbered number).answers_values answers rfl
    have counted := MemoryStore.ttl_nonneg ((view key).symm.trans live) ends short
    exact ⟨_, (Option.some.inj answered).symm, Cache.Lifetime.isLive_ofSeconds.2 counted⟩
  | refused _ may => exact absurd may (steady _)
  | quiet quiet => cases quiet

/-- An entry is told to be long gone whose lifetime is too long, at some
time before it ends. -/
theorem Lives.ttl_of_wrapped (lives : w.Lives key deadline worth) (reliable : w.Reliable) {rounds : Nat}
    (left : (deadline.since w.clock).millis = 9223372036854775808 + 18446744073709551616 * rounds)
    {answer : (Effect.cache (.ttl key)).Answer} (answers : w.Answers (.cache (.ttl key)) answer w') :
    answer = .ok (-9223372036854775) := by
  obtain ⟨e, live, ends, _⟩ := lives
  obtain ⟨_, _, values, view, answered, _⟩ := reliable.answers_values answers rfl
  rw [← Option.some.inj answered]
  exact congrArg Except.ok (MemoryStore.ttl_of_wrapped ((view key).symm.trans live) ends left)

theorem Lives.get (lives : w.Lives key deadline worth) (reliable : w.Reliable) (steady : ∀ r, ¬around.refuses r)
    {answer : (Effect.cache (.get key)).Answer} (meets : w.Meets around (.cache (.get key)) answer w') :
    ∃ bytes, answer = .ok (some bytes) ∧ worth bytes := by
  obtain ⟨e, live, _, worthy⟩ := lives
  cases meets with
  | cache number answers =>
    obtain ⟨_, found, _⟩ := (reliable.numbered number).get answers
    have same : (w.numbered number).cached? key = some e := live
    exact ⟨e.value, by rw [found, same, Option.map_some], worthy⟩
  | refused _ may => exact absurd may (steady _)
  | quiet quiet => cases quiet

end Simulation.World

end AccountCache
