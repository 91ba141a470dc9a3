import AccountCache.Account.Session
import AccountCache.Proofs.ReadBack.Calendar
import AccountCache.Proofs.Store.Ideal

namespace AccountCache

namespace Cache

/-- One millisecond more than a number of 64 bits without a
sign can count. -/
def reach : Duration := .ofMillis 18446744073709551616

/-- The most seconds of which a number of 64 bits with a sign can count the
milliseconds. -/
def longest : Nat := 9223372036854775

/-- Whether no lifetime that a request gives is longer than that. -/
def Request.Fits (r : Request) : Prop := ∀ d ∈ r.lifetimes, d ≤ reach

end Cache

/-- A moment from which every lifetime within reach ends at a moment of the
clock. A clock is so unless it is near its end. -/
def Instant.Ample (t : Instant) : Prop := t.nanos + Cache.reach.nanos < Instant.limit

namespace Instant

theorem Ample.of_le {t later : Instant} (ample : later.Ample) (order : t ≤ later) : t.Ample := by
  rw [Ample] at ample ⊢
  rw [le_def] at order
  omega

theorem Ample.add? {t : Instant} (ample : t.Ample) {d : Duration} (within : d ≤ Cache.reach) :
    t.add? d = some (t.after d) := by
  have below : t.nanos + d.nanos < limit := by
    rw [Ample] at ample
    rw [Duration.le_def] at within
    omega
  rw [Instant.add?, if_pos below, after]

end Instant

namespace Duration

theorem ofSeconds_le_reach {n : Nat} (short : n ≤ Cache.longest) : ofSeconds n ≤ Cache.reach := by
  simp only [Cache.longest] at short
  simp only [le_def, Cache.reach, ofSeconds, ofMillis, nanos_ofNanos, maxNanos]
  omega

theorem ofMillis_le_reach {n : Nat} (fits : n ≤ maxNat64) : ofMillis n ≤ Cache.reach := by
  simp only [maxNat64] at fits
  simp only [le_def, Cache.reach, ofMillis, nanos_ofNanos, maxNanos]
  omega

theorem ofSeconds_seconds_le (d : Duration) : ofSeconds d.seconds ≤ d := by
  simp only [le_def, ofSeconds, nanos_ofNanos, seconds]
  omega

theorem seconds_le (d : Duration) : d.seconds ≤ 18446744073709551615 := by
  have most := d.nanos_le
  simp only [seconds, maxNanos] at most ⊢
  omega

theorem seconds_ofSeconds (n : Nat) : (ofSeconds n).seconds = min n 18446744073709551615 := by
  simp only [ofSeconds, seconds, nanos_ofNanos, maxNanos]
  omega

theorem seconds_ofSeconds_le_longest {n : Nat} : (ofSeconds n).seconds ≤ Cache.longest ↔ n ≤ Cache.longest := by
  rw [seconds_ofSeconds, Cache.longest]
  omega

end Duration

namespace Timestamp

/-- A time of day that is no more than ten million million seconds
before 1970. -/
def IsRecent (t : Timestamp) : Prop := -10000000000000000000000 ≤ t.nanos

/-- What can be written in RFC 3339 lies before the year 10000. -/
theorem nanos_lt_of_isWritable {t : Timestamp} (writable : t.isWritable = true) :
    t.nanos < 300000000000000000000 := by
  simp only [isWritable, Bool.and_eq_true, decide_eq_true_eq] at writable
  obtain ⟨⟨⟨_, late⟩, _⟩, offset⟩ := writable
  obtain ⟨era, year, rest, month, inEra, inYear, _, parts, _, date⟩ := Date.ofDays_eq (t.localSeconds / 86400)
  have years : year + era * 400 ≤ 9999 := by
    rw [localDate, date] at late
    dsimp only at late
    split at late
    · exact late
    · omega
  rw [localSeconds] at parts
  omega

/-- What can be written in RFC 3339 is within reach of every recent
time of day. -/
theorem remaining_le_reach {t now : Timestamp} (writable : t.isWritable = true) (recent : now.IsRecent) :
    t.remaining now ≤ Cache.reach := by
  have early := nanos_lt_of_isWritable writable
  rw [IsRecent] at recent
  simp only [Duration.le_def, remaining, Cache.reach, Duration.ofMillis, Duration.nanos_ofNanos, Duration.maxNanos]
  omega

end Timestamp

namespace Cache

theorem Lifetime.isLive_ofSeconds {n : Int} : (Lifetime.ofSeconds n).isLive = true ↔ 0 ≤ n := by
  rw [ofSeconds]
  split
  · next none => simp [isLive, none]
  · split
    · simp [isLive]; omega
    · simp [isLive]; omega

namespace MemoryStore

/-- One millisecond more than fit in 63 bits is taken for as many
milliseconds less than none, because the count is cut to 64 bits
with a sign. -/
theorem roundMillis_wrapped (rounds : Nat) :
    roundMillis (9223372036854775808 + 18446744073709551616 * rounds) = -9223372036854775 := by
  have wrapped : wrapInt64 (9223372036854775808 + 18446744073709551616 * rounds : Nat) = -9223372036854775808 := by
    rw [wrapInt64, Int.bmod_def]
    omega
  rw [roundMillis, wrapped]
  rfl

/-- Of every lifetime that is too long there is a moment at which what is
left of it is counted wrong. -/
theorem exists_wrapped {n : Nat} (long : longest < n) (most : n ≤ 18446744073709551615) :
    ∃ (t : Instant) (rounds : Nat), t.Ample ∧ t < Instant.start.after (.ofSeconds n) ∧
      ((Instant.start.after (.ofSeconds n)).since t).millis = 9223372036854775808 + 18446744073709551616 * rounds := by
  simp only [longest] at long
  -- The moment is the first at which what is left exceeds whole rounds of 64 bits by exactly 63 bits.
  refine ⟨⟨1000000 * ((1000 * n - 9223372036854775808) % 18446744073709551616)⟩,
    (1000 * n - 9223372036854775808) / 18446744073709551616, ?_, ?_, ?_⟩
  · simp only [Instant.Ample, reach, Duration.ofMillis, Duration.nanos_ofNanos, Duration.maxNanos, Instant.limit]
    omega
  · simp only [Instant.lt_def, Instant.after, Instant.start, Duration.ofSeconds, Duration.nanos_ofNanos,
      Duration.maxNanos]
    omega
  · simp only [Instant.since, Instant.after, Instant.start, Duration.millis, Duration.ofSeconds,
      Duration.nanos_ofNanos, Duration.maxNanos]
    omega

variable {s : MemoryStore} {now deadline : Instant} {key : String} {e : Stored}

theorem ttl_of_live? (live : s.live? now key = some e) (ends : e.deadline = some deadline) :
    s.ttl now key = roundMillis (deadline.since now).millis := by
  simp only [ttl, live, ends]

/-- Of an entry with no more than the longest lifetime left the seconds are
counted right, and so the entry never counts as gone before its deadline. -/
theorem ttl_nonneg (live : s.live? now key = some e) (ends : e.deadline = some deadline)
    (short : deadline ≤ now.after (.ofSeconds longest)) : 0 ≤ s.ttl now key := by
  have small : (deadline.since now).millis ≤ 9223372036854775307 := by
    simp only [Instant.le_def, Instant.after, Duration.ofSeconds, Duration.nanos_ofNanos, Duration.maxNanos,
      longest] at short
    simp only [Instant.since, Duration.millis, Duration.nanos_ofNanos, Duration.maxNanos]
    omega
  rw [ttl_of_live? live ends, roundMillis_of_le small]
  exact Int.natCast_nonneg _

/-- An entry with a longer lifetime counts as long gone at some time
before it ends. -/
theorem ttl_of_wrapped {rounds : Nat} (live : s.live? now key = some e) (ends : e.deadline = some deadline)
    (left : (deadline.since now).millis = 9223372036854775808 + 18446744073709551616 * rounds) :
    s.ttl now key = -9223372036854775 := by
  rw [ttl_of_live? live ends, left]
  exact roundMillis_wrapped rounds

end MemoryStore

end Cache

end AccountCache
