import AccountCache.Key
import Std.Data.String.ToInt

namespace AccountCache

theorem hexDigit_injective {m n : Nat} (small : m < 16) (small' : n < 16)
    (same : hexDigit m = hexDigit n) : m = n := by
  have distinct : ∀ m < 16, ∀ n < 16, hexDigit m = hexDigit n → m = n := by decide
  exact distinct m small n small' same

theorem hexDigit_ne_hyphen {n : Nat} (small : n < 16) : hexDigit n ≠ '-' := by
  have digits : ∀ n < 16, hexDigit n ≠ '-' := by decide
  exact digits n small

theorem length_hexDigits (width n : Nat) : (hexDigits width n).length = width := by
  induction width generalizing n with
  | zero => rfl
  | succ width ih => rw [hexDigits, List.length_append, ih, List.length_singleton]

theorem hyphen_not_mem_hexDigits (width n : Nat) : '-' ∉ hexDigits width n := by
  induction width generalizing n with
  | zero => exact List.not_mem_nil
  | succ width ih =>
    intro member
    rcases List.mem_append.1 member with front | last
    · exact ih _ front
    · exact hexDigit_ne_hyphen (Nat.mod_lt n (by decide)) (List.mem_singleton.1 last).symm

theorem hexDigits_injective {width m n : Nat} (same : hexDigits width m = hexDigits width n) :
    m % Nat.pow 16 width = n % Nat.pow 16 width := by
  induction width generalizing m n with
  | zero => exact (Nat.mod_one m).trans (Nat.mod_one n).symm
  | succ width ih =>
    have lengths : (hexDigits width (m / 16)).length = (hexDigits width (n / 16)).length := by
      rw [length_hexDigits, length_hexDigits]
    obtain ⟨front, last⟩ := List.append_inj same lengths
    have high := ih front
    have low := hexDigit_injective (Nat.mod_lt m (by decide)) (Nat.mod_lt n (by decide))
      (List.singleton_inj.1 last)
    show m % (Nat.pow 16 width * 16) = n % (Nat.pow 16 width * 16)
    rw [Nat.mul_comm, Nat.mod_mul, Nat.mod_mul, high, low]

namespace Uuid

theorem filter_toChars (u : Uuid) : u.toChars.filter (· != '-') = hexDigits 32 u.value := by
  have plain : ∀ l : List Char, (∀ c ∈ l, c ∈ hexDigits 32 u.value) → l.filter (· != '-') = l := by
    intro l digits
    refine List.filter_eq_self.2 fun c member => bne_iff_ne.2 ?_
    rintro rfl
    exact hyphen_not_mem_hexDigits 32 u.value (digits _ member)
  rw [toChars]
  generalize hexDigits 32 u.value = d at plain
  have first := plain (d.take 8) fun c => List.mem_of_mem_take
  have part : ∀ i, ((d.drop i).take 4).filter (· != '-') = (d.drop i).take 4 := fun i =>
    plain _ fun c member => List.mem_of_mem_drop (List.mem_of_mem_take member)
  have last := plain (d.drop 20) fun c => List.mem_of_mem_drop
  have cut : ∀ i, (d.drop i).take 4 ++ d.drop (i + 4) = d.drop i := fun i => by
    rw [← List.drop_drop, List.take_append_drop]
  simp only [List.filter_append, List.filter_cons, first, part, last, bne_self_eq_false,
    Bool.false_eq_true, if_false, List.append_assoc, cut, List.take_append_drop]

theorem text_injective {a b : Uuid} (same : a.text = b.text) : a = b := by
  have chars : a.toChars = b.toChars := String.ofList_injective same
  have digits : hexDigits 32 a.value = hexDigits 32 b.value := by
    rw [← filter_toChars, chars, filter_toChars]
  have small : ∀ u : Uuid, u.value < Nat.pow 16 32 := fun u => Nat.lt_of_lt_of_le u.value_lt (by decide)
  have values := hexDigits_injective digits
  rw [Nat.mod_eq_of_lt (small a), Nat.mod_eq_of_lt (small b)] at values
  exact ext values

end Uuid

/-- Of the parts in front of two equal texts, one starts with the other. -/
theorem starts_of_append_eq {a b x y : String} (same : a ++ x = b ++ y) :
    a.toList <+: b.toList ∨ b.toList <+: a.toList := by
  have chars := congrArg String.toList same
  rw [String.toList_append, String.toList_append] at chars
  have starts : a.toList <+: b.toList ++ y.toList := chars ▸ List.prefix_append ..
  exact List.prefix_or_prefix_of_prefix starts (List.prefix_append ..)

/-- What the cache may hold a copy of. Each has a key of its own, and
different things have different keys. -/
inductive Datum where
  | user (id : Uuid)
  | email (address : String)
  | password (id : Uuid)
  | session (id : Int)
  | token (text : String)
  | permission
deriving DecidableEq

namespace Datum

def key : Datum → String
  | user id => Key.user id
  | email address => Key.email address
  | password id => Key.password id
  | session id => Key.session id
  | token text => Key.token text
  | permission => Key.permission

def stem : Datum → String
  | user _ => "cache:object:user:id:"
  | email _ => "cache:id:user_email:"
  | password _ => "cache:password:id:"
  | session _ => "cache:object:session:id:"
  | token _ => "cache:id:session_token:"
  | permission => "cache:object:rbac:permission"

def name : Datum → String
  | user id | password id => id.text
  | email address => address
  | session id => toString id
  | token text => text
  | permission => ""

theorem key_eq (d : Datum) : d.key = d.stem ++ d.name := by
  cases d with
  | user | email | password | session | token | permission => rfl

theorem stem_eq_of_starts {a b : Datum} (before : a.stem.toList <+: b.stem.toList) : a.stem = b.stem := by
  revert before
  cases a <;> cases b <;> simp only [stem] <;> decide

theorem key_injective {a b : Datum} (same : a.key = b.key) : a = b := by
  rw [key_eq, key_eq] at same
  have stems : a.stem = b.stem := by
    rcases starts_of_append_eq same with le | ge
    · exact stem_eq_of_starts le
    · exact (stem_eq_of_starts ge).symm
  rw [stems] at same
  have names : a.name = b.name := (String.append_right_inj _).1 same
  cases a <;> cases b <;> simp only [stem, String.reduceEq] at stems
  · rw [Uuid.text_injective names]
  · exact congrArg email names
  · rw [Uuid.text_injective names]
  · exact congrArg session (Int.repr_injective names)
  · exact congrArg token names
  · rfl

/-- No copy stands where a lock stands. -/
theorem key_ne_lock (d : Datum) (key : String) : d.key ≠ Key.lock key := by
  intro same
  rw [key_eq] at same
  refine absurd (starts_of_append_eq same) ?_
  cases d <;> simp only [stem] <;> decide

end Datum

end AccountCache
