import AccountCache.Proofs.Store.Call

namespace AccountCache

namespace Cache

/-- Whether a request is one of the writes that sweep a large
store first. -/
def Request.isSweeping : Request → Bool
  | set _ | setMany _ | increment _ | acquire .. => true
  | _ => false

def Call.isSweeping : Call → Bool
  | request r _ => r.isSweeping
  | _ => false

/-- Whether a call may touch what is under a key, beside a sweep. -/
def Call.Touches : Call → String → Prop
  | request r _, key => key ∈ r.keys
  | cleanup, _ => True
  | _, _ => False

/-- Whether an entry has no deadline before a moment. -/
def Stored.LastsTo (moment : Instant) (e : Stored) : Prop := ∀ deadline, e.deadline = some deadline → moment ≤ deadline

theorem Stored.LastsTo.of_le {e : Stored} {moment earlier : Instant} (lasts : e.LastsTo moment)
    (order : earlier ≤ moment) : e.LastsTo earlier :=
  fun deadline ends => Instant.le_trans order (lasts deadline ends)

theorem Stored.lastsTo_of_not_isExpired {e : Stored} {now : Instant} (live : e.isExpired now = false) :
    e.LastsTo now :=
  fun deadline ends => Nat.le_of_lt (Stored.isExpired_eq_false_iff.1 live deadline ends)

theorem Stored.lastsTo_of_endless (value : Bytes) (now : Instant) : Stored.LastsTo now ⟨value, none⟩ := by
  rintro _ ⟨⟩

theorem Stored.lastsTo_after (value : Bytes) (now : Instant) (d : Duration) :
    Stored.LastsTo now ⟨value, some (now.after d)⟩ := by
  rintro _ ⟨⟩
  exact Instant.le_after now d

namespace MemoryStore

def Sweeps (s : MemoryStore) (now : Instant) : Prop :=
  s.sweepThreshold ≤ s.entries.size ∧ sweepInterval ≤ now.since s.lastSweep

instance (s : MemoryStore) (now : Instant) : Decidable (s.Sweeps now) := inferInstanceAs (Decidable (_ ∧ _))

/-- The store with which a call goes on, once it has swept. -/
def swept (s : MemoryStore) (now : Instant) (c : Call) : MemoryStore := if c.isSweeping then s.maybeSweep now else s

theorem maybeSweep_of_sweeps {s : MemoryStore} {now : Instant} (due : s.Sweeps now) :
    s.maybeSweep now = { s.sweep now with lastSweep := now } :=
  if_pos due

theorem maybeSweep_of_not_sweeps {s : MemoryStore} {now : Instant} (rests : ¬s.Sweeps now) : s.maybeSweep now = s :=
  if_neg rests

/-- A sweep leaves what is live, and where there is none
everything stays. -/
theorem find?_maybeSweep (s : MemoryStore) (now : Instant) (key : String) :
    (s.maybeSweep now).entries.find? key = if s.Sweeps now then s.live? now key else s.entries.find? key := by
  by_cases due : s.Sweeps now
  · rw [maybeSweep_of_sweeps due, if_pos due]
    exact SortedMap.find?_filter ..
  · rw [maybeSweep_of_not_sweeps due, if_neg due]

/-- What may become of a store beside a sweep: only some entries are
touched. They go, or else those that come have no deadline in the past. -/
structure Edits (touches : String → Prop) (now : Instant) (s s' : MemoryStore) : Prop where
  threshold : s'.sweepThreshold = s.sweepThreshold
  lastSweep : s'.lastSweep = s.lastSweep
  others : ∀ {key}, ¬touches key → s'.entries.find? key = s.entries.find? key
  origin : ∀ {key e}, s'.entries.find? key = some e → s.entries.find? key = some e ∨ e.LastsTo now

variable {touches : String → Prop} {s s' s'' : MemoryStore} {now : Instant} {key : String}

namespace Edits

theorem refl (s : MemoryStore) : Edits touches now s s := ⟨rfl, rfl, fun _ => rfl, .inl⟩

theorem trans (first : Edits touches now s s') (second : Edits touches now s' s'') : Edits touches now s s'' where
  threshold := second.threshold.trans first.threshold
  lastSweep := second.lastSweep.trans first.lastSweep
  others away := (second.others away).trans (first.others away)
  origin found := by
    rcases second.origin found with before | lasts
    · exact first.origin before
    · exact .inr lasts

theorem put (s : MemoryStore) {e : Stored} (touched : touches key) (lasts : e.LastsTo now) :
    Edits touches now s (s.put key e) where
  threshold := rfl
  lastSweep := rfl
  others {other} away := by
    have differ : key ≠ other := fun same => away (same ▸ touched)
    rw [MemoryStore.put, SortedMap.find?_insert, if_neg differ]
  origin found := by
    rw [MemoryStore.put, SortedMap.find?_insert] at found
    split at found
    · cases found
      exact .inr lasts
    · exact .inl found

theorem putUntil (s : MemoryStore) {d : Duration} {deadline : Instant} (value : Bytes) (touched : touches key)
    (ends : now.add? d = some deadline) : Edits touches now s (s.put key ⟨value, some deadline⟩) := by
  rw [Instant.eq_after_of_add? ends]
  exact put s touched (Stored.lastsTo_after value now d)

theorem drop (s : MemoryStore) (touched : touches key) : Edits touches now s (s.drop key) where
  threshold := rfl
  lastSweep := rfl
  others {other} away := by
    have differ : key ≠ other := fun same => away (same ▸ touched)
    rw [MemoryStore.drop, SortedMap.find?_erase, if_neg differ]
  origin found := by
    rw [MemoryStore.drop, SortedMap.find?_erase] at found
    split at found
    · cases found
    · exact .inl found

theorem dropExpired (s : MemoryStore) (touched : touches key) : Edits touches now s (s.dropExpired now key) := by
  rw [MemoryStore.dropExpired]
  split
  · exact drop s touched
  · exact refl s

theorem insert? {e : Entry} (touched : touches e.key) (wrote : s.insert? now e = some s') :
    Edits touches now s s' := by
  obtain ⟨deadline, ends, rfl⟩ := Option.map_eq_some_iff.1 wrote
  exact putUntil s e.value touched ends

theorem set (s : MemoryStore) {e : Entry} (touched : touches e.key) :
    Edits touches now (s.maybeSweep now) (s.set now e).2 := by
  rw [MemoryStore.set]
  split
  · next wrote => exact insert? touched wrote
  · exact refl _

theorem insertAll (s : MemoryStore) {entries : List Entry} (touched : ∀ e ∈ entries, touches e.key) :
    Edits touches now s (s.insertAll now entries).2 := by
  induction entries generalizing s with
  | nil => exact refl s
  | cons e rest ih =>
    obtain ⟨first, later⟩ := List.forall_mem_cons.1 touched
    rw [MemoryStore.insertAll]
    split
    · next wrote => exact (insert? first wrote).trans (ih _ later)
    · exact refl s

theorem delete (s : MemoryStore) {keys : List String} (touched : ∀ key ∈ keys, touches key) :
    Edits touches now s (s.delete keys) := by
  induction keys generalizing s with
  | nil => exact refl s
  | cons key rest ih =>
    obtain ⟨first, later⟩ := List.forall_mem_cons.1 touched
    exact (drop s first).trans (ih (s.drop key) later)

theorem increment (s : MemoryStore) (touched : touches key) :
    Edits touches now (s.maybeSweep now) (s.increment now key).2 := by
  simp only [MemoryStore.increment]
  cases found : (s.maybeSweep now).live? now key with
  | none => exact put _ touched (Stored.lastsTo_of_endless _ now)
  | some e =>
    have live : e.isExpired now = false := by simpa using (Option.filter_eq_some_iff.1 found).2
    dsimp only
    cases counter? e.value with
    | none => exact refl _
    | some n =>
      dsimp only
      split
      · exact refl _
      · exact put _ touched (Stored.lastsTo_of_not_isExpired live)

theorem expire (s : MemoryStore) (touched : touches key) (ttl : Duration) :
    Edits touches now s (s.expire now key ttl).2 := by
  simp only [MemoryStore.expire]
  split
  · exact drop s touched
  · split
    · exact drop s touched
    · split
      · next ends => exact putUntil s _ touched ends
      · exact refl s

theorem acquire (s : MemoryStore) (lock : Lock) (touched : touches lock.key) :
    Edits touches now (s.maybeSweep now) (s.acquire now lock).2 := by
  simp only [MemoryStore.acquire]
  split
  · exact refl _
  · split
    · next ends => exact putUntil _ _ touched ends
    · exact refl _

theorem release (s : MemoryStore) {lock : Lock} (touched : touches lock.key) :
    Edits touches now s (s.release now lock).2 := by
  rw [MemoryStore.release]
  split
  · exact drop s touched
  · exact refl s

theorem cleanup (s : MemoryStore) : Edits (fun _ => True) now s (s.cleanup now).2 where
  threshold := rfl
  lastSweep := rfl
  others away := absurd trivial away
  origin found := .inl (Option.filter_eq_some_iff.1 ((SortedMap.find?_filter ..).symm.trans found)).1

/-- A call does nothing else to a store, once it has swept. Calls that do
not sweep leave everything that they do not touch, live or not. -/
theorem call (s : MemoryStore) (c : Call) : Edits c.Touches now (s.swept now c) (s.call now c).2 := by
  cases c with
  | size | isEmpty => exact refl s
  | cleanup => exact cleanup s
  | request r token =>
    cases r with
    | get key => exact dropExpired s (List.mem_singleton_self key)
    | set e => exact set s (List.mem_singleton_self e.key)
    | setMany entries => exact insertAll _ fun _ => List.mem_map_of_mem
    | delete keys => exact delete s fun _ => id
    | increment key => exact increment s (List.mem_singleton_self key)
    | expire key ttl => exact expire s (List.mem_singleton_self key) ttl
    | ttl key => exact refl s
    | acquire cacheKey expiry tries =>
      exact acquire s ⟨cacheKey, token, expiry⟩ (List.mem_singleton_self _)
    | release lock => exact release s (List.mem_singleton_self lock.key)
    | isHeld cacheKey => exact dropExpired s (List.mem_singleton_self _)

end Edits

end MemoryStore

open MemoryStore (Edits)

/-- What calls on a store can lead to, whatever they ask for, and when
writes swept it, the last time first. -/
inductive SweepReach (threshold : Nat) : List Instant → MemoryStore → Instant → Prop
  | start (now) : SweepReach threshold [] (.withThreshold threshold now) now
  | wait {sweeps s now later} :
      SweepReach threshold sweeps s now → now ≤ later → SweepReach threshold sweeps s later
  | call {sweeps s now} (c : Call) : SweepReach threshold sweeps s now →
      SweepReach threshold (if c.isSweeping ∧ s.Sweeps now then now :: sweeps else sweeps) (s.call now c).2 now

/-- When a store was swept by writes, and that no entry in it ended
before the last time. A store that no write has swept counts as swept
when it was made. -/
structure Tidy (threshold : Nat) (sweeps : List Instant) (s : MemoryStore) (now : Instant) : Prop where
  threshold : s.sweepThreshold = threshold
  past : s.lastSweep ≤ now
  last : ∀ moment ∈ sweeps, moment ≤ s.lastSweep
  apart : sweeps.Pairwise fun later earlier => earlier.after (.ofSeconds 1) ≤ later
  lingers : ∀ {key e}, s.entries.find? key = some e → e.LastsTo s.lastSweep

namespace Tidy

variable {threshold : Nat} {sweeps : List Instant} {s s' : MemoryStore} {now later : Instant}

theorem start (threshold : Nat) (now : Instant) : Tidy threshold [] (.withThreshold threshold now) now where
  threshold := rfl
  past := Instant.le_refl now
  last := List.forall_mem_nil _
  apart := .nil
  lingers := nofun

theorem wait (tidy : Tidy threshold sweeps s now) (order : now ≤ later) : Tidy threshold sweeps s later :=
  { tidy with past := Instant.le_trans tidy.past order }

theorem edit {touches : String → Prop} (tidy : Tidy threshold sweeps s now) (edits : Edits touches now s s') :
    Tidy threshold sweeps s' now where
  threshold := edits.threshold.trans tidy.threshold
  past := edits.lastSweep ▸ tidy.past
  last := edits.lastSweep ▸ tidy.last
  apart := tidy.apart
  lingers found := by
    rw [edits.lastSweep]
    rcases edits.origin found with before | lasts
    · exact tidy.lingers before
    · exact lasts.of_le tidy.past

theorem sweep (tidy : Tidy threshold sweeps s now) (due : s.Sweeps now) :
    Tidy threshold (now :: sweeps) (s.maybeSweep now) now := by
  have interval : s.lastSweep.after (.ofSeconds 1) ≤ now := by
    have long := due.2
    simp only [MemoryStore.sweepInterval, Duration.le_def, Instant.since, Instant.le_def, Instant.after,
      Duration.ofSeconds, Duration.nanos_ofNanos, Duration.maxNanos] at long ⊢
    omega
  rw [MemoryStore.maybeSweep_of_sweeps due]
  refine ⟨tidy.threshold, Instant.le_refl now, List.forall_mem_cons.2 ⟨Instant.le_refl now, fun moment told => ?_⟩,
    List.pairwise_cons.2 ⟨fun moment told => ?_, tidy.apart⟩, fun found => ?_⟩
  · exact Instant.le_trans (tidy.last moment told) tidy.past
  · exact Instant.le_trans (Instant.after_mono (tidy.last moment told) _) interval
  · have live := (Option.filter_eq_some_iff.1 ((SortedMap.find?_filter ..).symm.trans found)).2
    exact Stored.lastsTo_of_not_isExpired (by simpa using live)

theorem call (tidy : Tidy threshold sweeps s now) (c : Call) :
    Tidy threshold (if c.isSweeping ∧ s.Sweeps now then now :: sweeps else sweeps) (s.call now c).2 now := by
  refine edit ?_ (Edits.call s c)
  rw [MemoryStore.swept]
  by_cases write : c.isSweeping = true
  · rw [if_pos write]
    by_cases due : s.Sweeps now
    · rw [if_pos ⟨write, due⟩]
      exact tidy.sweep due
    · rw [if_neg fun both => due both.2, MemoryStore.maybeSweep_of_not_sweeps due]
      exact tidy
  · rw [if_neg write, if_neg fun both => write both.1]
    exact tidy

theorem lt_lastSweep {c : Call} (tidy : Tidy threshold sweeps s now) (write : c.isSweeping = true)
    (large : threshold ≤ s.entries.size) : now < (s.call now c).2.lastSweep.after (.ofSeconds 1) := by
  rw [(Edits.call s c).lastSweep, MemoryStore.swept, if_pos write]
  by_cases due : s.Sweeps now
  · rw [MemoryStore.maybeSweep_of_sweeps due]
    exact Nat.lt_add_of_pos_right (by decide)
  · rw [MemoryStore.maybeSweep_of_not_sweeps due]
    have recent : ¬MemoryStore.sweepInterval ≤ now.since s.lastSweep :=
      fun long => due ⟨tidy.threshold ▸ large, long⟩
    simp only [MemoryStore.sweepInterval, Duration.le_def, Instant.since, Instant.lt_def, Instant.after,
      Duration.ofSeconds, Duration.nanos_ofNanos, Duration.maxNanos] at recent ⊢
    omega

end Tidy

theorem SweepReach.tidy {threshold : Nat} {sweeps : List Instant} {s : MemoryStore} {now : Instant}
    (reach : SweepReach threshold sweeps s now) : Tidy threshold sweeps s now := by
  induction reach with
  | start now => exact .start threshold now
  | wait _ order ih => exact ih.wait order
  | call c _ ih => exact ih.call c

/-- A cleanup drops as many entries as have passed their deadline, and
counts them. -/
theorem MemoryStore.cleanup_count (s : MemoryStore) (now : Instant) :
    (s.cleanup now).1 = s.entries.values.countP (·.isExpired now) := by
  have parts := List.length_eq_countP_add_countP (fun e : String × Stored => e.2.isExpired now) (l := s.entries.entries)
  have kept : (s.sweep now).entries.size = s.entries.entries.countP fun e => !e.2.isExpired now :=
    List.countP_eq_length_filter.symm
  have expired : s.entries.values.countP (·.isExpired now) = s.entries.entries.countP fun e => e.2.isExpired now :=
    List.countP_map
  rw [cleanup, kept, expired, SortedMap.size, parts]
  simp

/-- Whatever clients ask of a store in memory, and however much time passes
in between: right after a write to a store of at least the size from which
on it is swept, no entry is there that ended a second ago or earlier. A
write that sweeps leaves what is live, and no other write touches more than
the keys that it names. Sweeps and cleanups leave every live entry. Between
two sweeps by writes there is at least a second. A cleanup counts the
entries that it drops, which are all that have passed their deadline. -/
theorem garbage_bounded (threshold : Nat) {sweeps : List Instant} {s : MemoryStore} {now : Instant}
    (reach : SweepReach threshold sweeps s now) :
    (∀ c : Call, c.isSweeping = true → threshold ≤ s.entries.size → ∀ key e deadline,
      (s.call now c).2.entries.find? key = some e → e.deadline = some deadline → now < deadline.after (.ofSeconds 1)) ∧
    (∀ c : Call, c.isSweeping = true → ∀ key, ¬c.Touches key →
      (s.call now c).2.entries.find? key = if s.Sweeps now then s.live? now key else s.entries.find? key) ∧
    (∀ key e, s.entries.find? key = some e → e.isExpired now = false →
      (s.maybeSweep now).entries.find? key = some e ∧ (s.cleanup now).2.entries.find? key = some e) ∧
    (sweeps.Pairwise fun later earlier => earlier.after (.ofSeconds 1) ≤ later) ∧
    (s.cleanup now).1 = s.entries.values.countP (·.isExpired now) := by
  have tidy := reach.tidy
  refine ⟨fun c sweeping large key e deadline found ends => ?_, fun c sweeping key away => ?_,
    fun key e found lives => ?_, tidy.apart, s.cleanup_count now⟩
  · have lingers := (tidy.call c).lingers found deadline ends
    exact Instant.lt_of_lt_of_le (tidy.lt_lastSweep sweeping large) (Instant.after_mono lingers _)
  · rw [(Edits.call s c).others away, MemoryStore.swept, if_pos sweeping, s.find?_maybeSweep]
  · have live : s.live? now key = some e := by
      rw [MemoryStore.live?, found, Option.filter_some, lives]
      rfl
    have kept : (s.sweep now).entries.find? key = some e := (SortedMap.find?_filter ..).trans live
    refine ⟨?_, kept⟩
    rw [s.find?_maybeSweep]
    split
    · exact live
    · exact found

/-- A store of two or more entries is swept after one and a half and after
two and a half seconds. An entry that ends half a second later is still
there 0.4 seconds after its end, when a third write comes too early to
sweep, and a cleanup then drops that one entry. -/
theorem garbage_bounded_between_sweeps : ∃ sweeps s, SweepReach 2 sweeps s ⟨3400000000⟩ ∧
    sweeps = [⟨2500000000⟩, ⟨1500000000⟩] ∧ (⟨1500000000⟩ : Instant).after (.ofSeconds 1) ≤ ⟨2500000000⟩ ∧
    (s.call ⟨3400000000⟩ (.request (.increment "n") "")).2.entries.find? "b" =
      some ⟨.ofText "v", some ⟨3000000000⟩⟩ ∧
    ⟨3400000000⟩ < (⟨3000000000⟩ : Instant).after (.ofSeconds 1) ∧ (s.cleanup ⟨3400000000⟩).1 = 1 := by
  have start : SweepReach 2 [] (.withThreshold 2 .start) .start := .start .start
  have small := (start.call (.request (.set ⟨"a", .ofText "v", 1⟩) "")).call (.request (.set ⟨"b", .ofText "v", 3⟩) "")
  have early : SweepReach 2 _ _ ⟨1500000000⟩ := small.wait (by decide)
  have once := early.call (.request (.set ⟨"c", .ofText "v", 60⟩) "")
  have late : SweepReach 2 _ _ ⟨2500000000⟩ := once.wait (by decide)
  have twice := late.call (.request (.set ⟨"d", .ofText "v", 60⟩) "")
  have reach : SweepReach 2 _ _ ⟨3400000000⟩ := twice.wait (by decide)
  obtain ⟨bound, -, -, apart, count⟩ := garbage_bounded 2 reach
  have lingers := bound (.request (.increment "n") "") rfl (by decide) "b" ⟨.ofText "v", some ⟨3000000000⟩⟩ ⟨3000000000⟩
    rfl rfl
  exact ⟨_, _, reach, rfl, (List.pairwise_cons.1 apart).1 _ (List.mem_singleton_self _), rfl, lingers, count.trans rfl⟩

end Cache

end AccountCache
