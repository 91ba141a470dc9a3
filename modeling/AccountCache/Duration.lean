namespace AccountCache

def Duration.maxNanos : Nat := 18446744073709551615999999999

/-- A span of time with nanosecond resolution, one nanosecond short of `2 ^
64` seconds at most. -/
structure Duration where
  nanos : Nat
  nanos_le : nanos ≤ Duration.maxNanos
deriving DecidableEq

namespace Duration

@[ext] theorem ext {a b : Duration} (h : a.nanos = b.nanos) : a = b := by
  cases a; cases b; simp_all

/-- The span of `n` nanoseconds; longer ones are cut to the longest span. -/
def ofNanos (n : Nat) : Duration := ⟨min n maxNanos, Nat.min_le_right _ _⟩

def ofMillis (n : Nat) : Duration := ofNanos (1000000 * n)

def ofSeconds (n : Nat) : Duration := ofNanos (1000000000 * n)

def zero : Duration := ⟨0, Nat.zero_le _⟩

instance : Inhabited Duration := ⟨zero⟩

def seconds (d : Duration) : Nat := d.nanos / 1000000000

def millis (d : Duration) : Nat := d.nanos / 1000000

def subsecNanos (d : Duration) : Nat := d.nanos % 1000000000

instance : LE Duration := ⟨fun a b => a.nanos ≤ b.nanos⟩

instance : LT Duration := ⟨fun a b => a.nanos < b.nanos⟩

instance (a b : Duration) : Decidable (a ≤ b) := inferInstanceAs (Decidable (a.nanos ≤ b.nanos))

instance (a b : Duration) : Decidable (a < b) := inferInstanceAs (Decidable (a.nanos < b.nanos))

instance : Min Duration := ⟨fun a b => if a ≤ b then a else b⟩

instance : Max Duration := ⟨fun a b => if a ≤ b then b else a⟩

/-- The span repeated `n` times; the product stops at the longest span. -/
def mul (d : Duration) (n : Nat) : Duration := ofNanos (d.nanos * n)

theorem le_def {a b : Duration} : a ≤ b ↔ a.nanos ≤ b.nanos := Iff.rfl

theorem lt_def {a b : Duration} : a < b ↔ a.nanos < b.nanos := Iff.rfl

@[simp] theorem nanos_zero : zero.nanos = 0 := rfl

@[simp] theorem nanos_ofNanos (n : Nat) : (ofNanos n).nanos = min n maxNanos := rfl

@[simp] theorem nanos_mul (d : Duration) (n : Nat) :
    (d.mul n).nanos = min (d.nanos * n) maxNanos := rfl

@[simp] theorem nanos_min (a b : Duration) : (min a b).nanos = min a.nanos b.nanos := by
  show (if a.nanos ≤ b.nanos then a else b).nanos = _
  split <;> omega

@[simp] theorem nanos_max (a b : Duration) : (max a b).nanos = max a.nanos b.nanos := by
  show (if a.nanos ≤ b.nanos then b else a).nanos = _
  split <;> omega

/-- Digits of a fraction of a unit, without the zeros at its end. -/
def fractionText (fraction width : Nat) : String :=
  let digits := toString (Nat.pow 10 width + fraction)
  let kept := (digits.toList.drop 1).reverse.dropWhile (· == '0')
  String.ofList kept.reverse

/-- A count of a unit, whose fraction has `width` digits, with the
unit's name. -/
def unitText (whole fraction width : Nat) (unit : String) : String :=
  let digits := fractionText fraction width
  if digits.isEmpty then toString whole ++ unit else toString whole ++ "." ++ digits ++ unit

/-- The span in the largest unit of s, ms, µs and ns that it
reaches, exactly. -/
def text (d : Duration) : String :=
  if 0 < d.seconds then unitText d.seconds d.subsecNanos 9 "s"
  else if 1000000 ≤ d.nanos then unitText (d.nanos / 1000000) (d.nanos % 1000000) 6 "ms"
  else if 1000 ≤ d.nanos then unitText (d.nanos / 1000) (d.nanos % 1000) 3 "µs"
  else toString d.nanos ++ "ns"

end Duration

end AccountCache
