import AccountCache.Cache.Backoff
import Mathlib.Algebra.Group.Nat.Defs

namespace AccountCache

namespace Cache

namespace Backoff

inductive Call where
  | next
  | reset
deriving DecidableEq

/-- What becomes of a backoff, by what was done with it. The last call
comes first. -/
def after (b : Backoff) : List Call → Backoff
  | [] => b
  | .next :: earlier => (b.after earlier).advance
  | .reset :: earlier => (b.after earlier).reset

/-- How many delays were taken since the last reset. -/
def taken (calls : List Call) : Nat := (calls.takeWhile (· = .next)).length

/-- The nanoseconds of the next delay after a number of delays: it doubles
16 times at most, and is never more than the longer of the two bounds. -/
def schedule (least greatest : Duration) (n : Nat) : Nat :=
  Min.min (least.nanos * 2 ^ Min.min n 16) (Max.max least.nanos greatest.nanos)

/-- A new backoff, with jitter or without. -/
def start (least greatest : Duration) (jitter : Bool) : Backoff := { new least greatest with jitter }

variable {least greatest drawn : Duration} {jitter : Bool} {calls : List Call} {m n : Nat}

theorem taken_next : taken (.next :: calls) = taken calls + 1 := rfl

theorem taken_reset : taken (.reset :: calls) = 0 := rfl

theorem taken_replicate (k : Nat) (calls : List Call) : taken (List.replicate k .next ++ calls) = taken calls + k := by
  induction k with
  | zero => rw [List.replicate_zero, List.nil_append, Nat.add_zero]
  | succ k ih => rw [List.replicate_succ, List.cons_append, taken_next, ih, Nat.add_assoc]

/-- Only the count of attempts changes. It counts what was taken since the
last reset, as far as it can. -/
theorem after_start (calls : List Call) :
    (start least greatest jitter).after calls =
      ⟨least, Max.max greatest least, jitter, Nat.min (taken calls) maxAttempt⟩ := by
  induction calls with
  | nil => rfl
  | cons call earlier ih =>
    cases call with
    | next =>
      have count : Nat.min (Nat.min (taken earlier) maxAttempt + 1) maxAttempt =
          Nat.min (taken earlier + 1) maxAttempt := by
        show Min.min (Min.min _ _ + 1) _ = Min.min _ _
        omega
      rw [after, ih, advance, count, taken_next]
    | reset =>
      rw [after, ih, taken_reset]
      rfl

/-- A count that stays at its greatest value does no harm, since the
doublings have long come to their end. -/
theorem nanos_step_after_start (calls : List Call) :
    ((start least greatest jitter).after calls).step.nanos = schedule least greatest (taken calls) := by
  have doublings : Nat.min (Nat.min (taken calls) maxAttempt) 16 = Min.min (taken calls) 16 := by
    show Min.min (Min.min _ 4294967295) 16 = _
    omega
  have bounds := (Max.max greatest least).nanos_le
  rw [Duration.nanos_max] at bounds
  rw [after_start, step, Duration.nanos_min, Duration.nanos_mul, Duration.nanos_max, doublings, schedule]
  show Min.min (Min.min (least.nanos * 2 ^ Min.min (taken calls) 16) _) _ = _
  omega

theorem schedule_mono (order : m ≤ n) : schedule least greatest m ≤ schedule least greatest n := by
  have power : 2 ^ Min.min m 16 ≤ 2 ^ Min.min n 16 := Nat.pow_le_pow_right (by decide) (by omega)
  have product := Nat.mul_le_mul_left least.nanos power
  rw [schedule, schedule]
  omega

theorem least_le_schedule (n : Nat) : least.nanos ≤ schedule least greatest n := by
  have product := Nat.le_mul_of_pos_right least.nanos (Nat.two_pow_pos (Min.min n 16))
  rw [schedule]
  omega

theorem narrow_of_lt (fits : drawn.nanos < 18446744073709551616) : narrow drawn = drawn := by
  apply Duration.ext
  have bound := drawn.nanos_le
  rw [narrow, Duration.nanos_ofNanos, Nat.mod_eq_of_lt fits]
  omega

/-- Sixteen doublings are as good as doubling without end just if they reach
the greatest delay. -/
theorem schedule_eq_iff :
    (∀ n, schedule least greatest n = Min.min (least.nanos * 2 ^ n) (Max.max least.nanos greatest.nanos)) ↔
      least.nanos = 0 ∨ greatest.nanos ≤ least.nanos * 65536 := by
  constructor
  · intro endless
    have next := endless 17
    rw [schedule, show 2 ^ Min.min 17 16 = 65536 from rfl, show 2 ^ 17 = 131072 from rfl] at next
    omega
  · intro reached n
    rw [schedule]
    rcases Nat.le_total n 16 with few | many
    · rw [Nat.min_eq_left few]
    · have power : 2 ^ 16 ≤ 2 ^ n := Nat.pow_le_pow_right (by decide) many
      have product := Nat.mul_le_mul_left least.nanos power
      rw [Nat.min_eq_right many]
      rcases reached with zero | reached
      · rw [zero, Nat.zero_mul, Nat.zero_mul]
      · omega

theorem nanos_delay_start (drawn : Duration) (calls : List Call) :
    (((start least greatest false).after calls).delay drawn).nanos = schedule least greatest (taken calls) := by
  have fixed : ((start least greatest false).after calls).draws = false := by rw [after_start]; rfl
  rw [delay, fixed]
  exact nanos_step_after_start calls

/-- With jitter a draw is the delay, if 64 bits hold its nanoseconds; none
is made as long as the delays do not grow. -/
theorem delay_start_eq
    (fits : schedule least greatest (taken calls) = least.nanos ∨ drawn.nanos < 18446744073709551616) :
    ((start least greatest true).after calls).delay drawn =
      if schedule least greatest (taken calls) = least.nanos then least else drawn := by
  have step : ((start least greatest true).after calls).step.nanos = schedule least greatest (taken calls) :=
    nanos_step_after_start calls
  have draws : ((start least greatest true).after calls).draws =
      decide (least.nanos < schedule least greatest (taken calls)) := by
    rw [← step, draws, after_start]
    rfl
  rw [delay, draws]
  by_cases same : schedule least greatest (taken calls) = least.nanos
  · rw [if_pos same, same, decide_eq_false (Nat.lt_irrefl _)]
    exact Duration.ext (step.trans same)
  · have grown := Nat.lt_of_le_of_ne (least_le_schedule (taken calls)) (Ne.symm same)
    rw [if_neg same, decide_eq_true grown]
    exact narrow_of_lt (fits.resolve_left same)

/-- Whatever delays were taken of a new backoff and however often it was
reset: without jitter the next delay is the least one, doubled for every
delay since the last reset, but 16 times at most, and cut to the longer of
the two bounds. With jitter it lies between the least delay and that,
whatever is drawn between them, as long as 64 bits hold the nanoseconds of
the draw. Until the next reset delays without jitter never decrease. -/
theorem delay_follows_schedule (least greatest : Duration) (calls : List Call) :
    (∀ drawn, (((start least greatest false).after calls).delay drawn).nanos =
      schedule least greatest (taken calls)) ∧
    (∀ drawn, least.nanos ≤ drawn.nanos → drawn.nanos ≤ schedule least greatest (taken calls) →
      (schedule least greatest (taken calls) = least.nanos ∨ drawn.nanos < 18446744073709551616) →
      least ≤ ((start least greatest true).after calls).delay drawn ∧
        (((start least greatest true).after calls).delay drawn).nanos ≤ schedule least greatest (taken calls)) ∧
    ∀ (k : Nat) (drawn drawn' : Duration), ((start least greatest false).after calls).delay drawn ≤
      ((start least greatest false).after (List.replicate k .next ++ calls)).delay drawn' := by
  refine ⟨fun drawn => nanos_delay_start drawn calls, fun drawn low high fits => ?_, fun k drawn drawn' => ?_⟩
  · rw [delay_start_eq fits]
    split
    · exact ⟨Nat.le_refl _, least_le_schedule _⟩
    · exact ⟨low, high⟩
  · rw [Duration.le_def, nanos_delay_start, nanos_delay_start, taken_replicate]
    exact schedule_mono (Nat.le_add_right ..)

/-- From one millisecond on, the second delay after a reset may be two
milliseconds. -/
theorem delay_follows_schedule_after_reset :
    Duration.ofMillis 1 ≤ ((start (.ofMillis 1) (.ofMillis 5) true).after [.next, .reset, .next]).delay (.ofMillis 2) ∧
      (((start (.ofMillis 1) (.ofMillis 5) true).after [.next, .reset, .next]).delay (.ofMillis 2)).nanos ≤ 2000000 :=
  (delay_follows_schedule (.ofMillis 1) (.ofMillis 5) [.next, .reset, .next]).2.1 (.ofMillis 2) (by decide) (by decide)
    (.inr (by decide))

/-- After 17 delays that grow from a nanosecond the next is not twice the
one before, though it is far from the greatest delay of a second. And where
`2 ^ 64` nanoseconds are the least delay, drawing it gives none at all. -/
theorem no_seventeenth_doubling :
    (((start (.ofNanos 1) (.ofSeconds 1) false).after (List.replicate 17 .next)).delay .zero).nanos ≠
      Min.min (1 * 2 ^ 17) (Max.max 1 1000000000) ∧
    ¬Duration.ofNanos 18446744073709551616 ≤
      ((start (.ofNanos 18446744073709551616) (.ofNanos 36893488147419103232) true).after [.next]).delay
        (.ofNanos 18446744073709551616) := by
  decide

end Backoff

end Cache

end AccountCache
