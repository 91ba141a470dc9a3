import AccountCache.Cache.MemoryStore

namespace AccountCache

namespace Cache

/-- The longest lifetime for which `Instant.Roomy` promises a deadline. -/
def horizon : Duration := .ofSeconds 9000000000000000

end Cache

/-- A moment from which every lifetime up to the horizon ends at a moment
of the clock. -/
def Instant.Roomy (t : Instant) : Prop := t.nanos + Cache.horizon.nanos < Instant.limit

instance (t : Instant) : Decidable t.Roomy := inferInstanceAs (Decidable (_ < _))

theorem Instant.Roomy.of_le {t later : Instant} (roomy : later.Roomy) (order : t ≤ later) : t.Roomy := by
  rw [Roomy] at roomy ⊢
  rw [le_def] at order
  omega

theorem Instant.add?_of_roomy {t : Instant} {d : Duration} (roomy : t.Roomy)
    (bound : d ≤ Cache.horizon) : t.add? d = some (t.after d) := by
  have below : t.nanos + d.nanos < Instant.limit := by
    rw [Duration.le_def] at bound
    rw [Instant.Roomy] at roomy
    omega
  simp only [Instant.add?, Instant.after, if_pos below]

theorem Instant.eq_after_of_add? {t moment : Instant} {d : Duration} (found : t.add? d = some moment) :
    moment = t.after d := by
  rw [Instant.add?] at found
  split at found
  · exact (Option.some.inj found).symm
  · cases found

theorem Instant.lt_of_add? {t moment : Instant} {d : Duration} (found : t.add? d = some moment)
    (positive : d.nanos ≠ 0) : t < moment := by
  rw [Instant.eq_after_of_add? found]
  simp only [Instant.lt_def, Instant.after]
  omega

namespace Cache

theorem ofSeconds_le_horizon {n : Nat} (bound : n ≤ 9000000000000000) :
    Duration.ofSeconds n ≤ horizon := by
  simp only [horizon, Duration.le_def, Duration.ofSeconds, Duration.nanos_ofNanos, Duration.maxNanos]
  omega

theorem Stored.isExpired_of_le {e : Stored} {now later : Instant} (order : now ≤ later)
    (expired : e.isExpired now = true) : e.isExpired later = true := by
  cases deadline : e.deadline with
  | none => simp [Stored.isExpired, deadline] at expired
  | some moment =>
    simp only [Stored.isExpired, deadline, Option.any_some, decide_eq_true_eq] at expired ⊢
    exact Instant.le_trans expired order

theorem Stored.isExpired_eq_false_iff {e : Stored} {now : Instant} :
    e.isExpired now = false ↔ ∀ deadline, e.deadline = some deadline → now < deadline := by
  cases state : e.deadline with
  | none => simp [Stored.isExpired, state]
  | some moment =>
    simp only [Stored.isExpired, state, Option.any_some, decide_eq_false_iff_not, Option.some.injEq,
      forall_eq', Instant.le_def, Instant.lt_def, Nat.not_le]

namespace MemoryStore

variable (s : MemoryStore) {now later : Instant} {key : String}

/-- As time passes, what was live stays so until its deadline, and nothing
else becomes live. Every operation is described by what it leaves live, so
that sweeps and entries that linger need not be thought of again. -/
theorem live?_of_le (order : now ≤ later) :
    s.live? later key = (s.live? now key).filter fun e => !e.isExpired later := by
  cases found : s.entries.find? key with
  | none => simp only [live?, found, Option.filter_none]
  | some e =>
    simp only [live?, found, Option.filter_some]
    cases expired : e.isExpired now with
    | false => simp [Option.filter_some]
    | true => simp [Stored.isExpired_of_le order expired]

@[simp] theorem live?_withThreshold (threshold : Nat) (start : Instant) :
    (withThreshold threshold start).live? now key = none := rfl

theorem live?_put (at_ : String) (e : Stored) :
    (s.put at_ e).live? now key =
      if at_ = key then (if e.isExpired now then none else some e) else s.live? now key := by
  simp only [live?, put, SortedMap.find?_insert]
  split
  · cases expired : e.isExpired now with
    | false => simp [Option.filter_some, expired]
    | true => simp [Option.filter_some, expired]
  · rfl

theorem live?_drop (at_ : String) :
    (s.drop at_).live? now key = if at_ = key then none else s.live? now key := by
  simp only [live?, drop, SortedMap.find?_erase]
  split
  · rfl
  · rfl

theorem live?_sweep : (s.sweep now).live? now key = s.live? now key := by
  simp only [live?, sweep, SortedMap.find?_filter, Option.filter_filter, Bool.and_self]

theorem live?_maybeSweep : (s.maybeSweep now).live? now key = s.live? now key := by
  rw [maybeSweep]
  split
  · exact s.live?_sweep
  · rfl

theorem live?_dropExpired (at_ : String) : (s.dropExpired now at_).live? now key = s.live? now key := by
  rw [dropExpired]
  split
  · next expired =>
    rw [live?_drop]
    split
    · next same =>
      obtain ⟨e, found, gone⟩ := (Option.any_eq_true _ _).1 expired
      simp [live?, ← same, found, Option.filter_some, gone]
    · rfl
  · rfl

end MemoryStore

end Cache

end AccountCache
