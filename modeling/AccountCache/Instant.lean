import AccountCache.Duration

namespace AccountCache

/-- A moment of a clock that never runs backwards, in nanoseconds since the
clock's start. -/
structure Instant where
  nanos : Nat
deriving DecidableEq

namespace Instant

/-- The first moment that the clock cannot represent. -/
def limit : Nat := 9223372036854775808 * 1000000000

def start : Instant := ⟨0⟩

instance : Inhabited Instant := ⟨start⟩

instance : LE Instant := ⟨fun a b => a.nanos ≤ b.nanos⟩

instance : LT Instant := ⟨fun a b => a.nanos < b.nanos⟩

instance (a b : Instant) : Decidable (a ≤ b) := inferInstanceAs (Decidable (a.nanos ≤ b.nanos))

instance (a b : Instant) : Decidable (a < b) := inferInstanceAs (Decidable (a.nanos < b.nanos))

instance : Max Instant := ⟨fun a b => if a ≤ b then b else a⟩

theorem le_def {a b : Instant} : a ≤ b ↔ a.nanos ≤ b.nanos := Iff.rfl

theorem lt_def {a b : Instant} : a < b ↔ a.nanos < b.nanos := Iff.rfl

theorem le_refl (a : Instant) : a ≤ a := Nat.le_refl a.nanos

theorem le_trans {a b c : Instant} (first : a ≤ b) (second : b ≤ c) : a ≤ c :=
  Nat.le_trans first second

theorem lt_of_lt_of_le {a b c : Instant} (first : a < b) (second : b ≤ c) : a < c :=
  Nat.lt_of_lt_of_le first second

theorem lt_of_le_of_lt {a b c : Instant} (first : a ≤ b) (second : b < c) : a < c :=
  Nat.lt_of_le_of_lt first second

theorem not_lt {a b : Instant} : ¬a < b ↔ b ≤ a := Nat.not_lt

theorem not_le {a b : Instant} : ¬a ≤ b ↔ b < a := Nat.not_le

theorem lt_of_le_of_ne {a b : Instant} (order : a ≤ b) (differ : a ≠ b) : a < b :=
  Nat.lt_of_le_of_ne order fun same => differ (congrArg Instant.mk same)

theorem eq_start_of_le {t : Instant} (order : t ≤ start) : t = start :=
  congrArg Instant.mk (Nat.le_zero.1 order)

theorem le_max_left (a b : Instant) : a ≤ max a b := by
  show a.nanos ≤ (if a.nanos ≤ b.nanos then b else a).nanos
  split <;> omega

theorem le_max_right (a b : Instant) : b ≤ max a b := by
  show b.nanos ≤ (if a.nanos ≤ b.nanos then b else a).nanos
  split <;> omega

theorem max_eq_right {a b : Instant} (order : a ≤ b) : max a b = b := if_pos order

theorem max_start (t : Instant) : max start t = t := max_eq_right (Nat.zero_le _)

/-- The later of two moments is one of them. -/
theorem max_of {P : Instant → Prop} {a b : Instant} (first : P a) (second : P b) : P (max a b) := by
  show P (if a ≤ b then b else a)
  split
  · exact second
  · exact first

/-- The moment a span later, if the clock can represent it. -/
def add? (t : Instant) (d : Duration) : Option Instant :=
  if t.nanos + d.nanos < limit then some ⟨t.nanos + d.nanos⟩ else none

def after (t : Instant) (d : Duration) : Instant := ⟨t.nanos + d.nanos⟩

/-- The span from an earlier moment to this one, zero if that moment is
not earlier. -/
def since (t earlier : Instant) : Duration := Duration.ofNanos (t.nanos - earlier.nanos)

/-- The first whole millisecond at or after the moment. -/
def roundUp (t : Instant) : Instant := ⟨1000000 * ((t.nanos + 999999) / 1000000)⟩

theorem le_roundUp (t : Instant) : t ≤ t.roundUp := by
  simp only [le_def, roundUp]; omega

theorem roundUp_mono {a b : Instant} (order : a ≤ b) : a.roundUp ≤ b.roundUp := by
  simp only [le_def, roundUp] at order ⊢
  omega

theorem le_after (t : Instant) (d : Duration) : t ≤ t.after d := Nat.le_add_right ..

theorem after_mono {a b : Instant} (order : a ≤ b) (d : Duration) : a.after d ≤ b.after d :=
  Nat.add_le_add_right order d.nanos

end Instant

end AccountCache
