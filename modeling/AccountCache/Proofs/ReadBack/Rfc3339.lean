import AccountCache.Proofs.ReadBack.Calendar
import AccountCache.Timestamp.Rfc3339
import Mathlib.Algebra.Group.Nat.Defs
import Mathlib.Data.List.TakeWhile
import Mathlib.Data.Option.Basic

namespace AccountCache

namespace Timestamp

theorem isDigit_of_mem_padded {width n : Nat} {c : Char} (member : c ∈ padded width n) : c.isDigit = true := by
  rcases List.mem_append.1 member with zero | digit
  · rw [List.eq_of_mem_replicate zero]
    rfl
  · exact Nat.isDigit_of_mem_toDigits (by decide) (by decide) digit

theorem length_padded {width n : Nat} (positive : 0 < width) (small : n < 10 ^ width) :
    (padded width n).length = width := by
  have short := (Nat.length_toDigits_le_iff (by decide) positive).2 small
  simp only [padded, List.length_append, List.length_replicate]
  omega

theorem ofDigitChars_padded (width n : Nat) : Nat.ofDigitChars 10 (padded width n) 0 = n := by
  simp only [padded, Nat.ofDigitChars_append, Nat.ofDigitChars_replicate_zero, Nat.mul_zero]
  exact Nat.ofDigitChars_toDigits (by decide) (by decide)

theorem digits?_append {ds : List Char} (digits : ∀ c ∈ ds, c.isDigit = true) (rest : List Char) :
    digits? ds.length (ds ++ rest) = some (Nat.ofDigitChars 10 ds 0, rest) := by
  induction ds with
  | nil => rfl
  | cons d ds ih =>
    obtain ⟨digit, digits⟩ := List.forall_mem_cons.1 digits
    have value : Nat.ofDigitChars 10 (d :: ds) 0 =
        (d.toNat - '0'.toNat) * Nat.pow 10 ds.length + Nat.ofDigitChars 10 ds 0 := by
      rw [Nat.ofDigitChars_cons, Nat.ofDigitChars_eq_ofDigitChars_zero, Nat.mul_zero, Nat.zero_add, Nat.mul_comm]
      rfl
    rw [List.length_cons, List.cons_append, digits?, if_pos digit, ih digits, value]
    rfl

theorem digits?_padded {width n : Nat} (positive : 0 < width) (small : n < 10 ^ width) (rest : List Char) :
    digits? width (padded width n ++ rest) = some (n, rest) := by
  have digits : ∀ c ∈ padded width n, c.isDigit = true := fun _ => isDigit_of_mem_padded
  have read := digits?_append digits rest
  rwa [length_padded positive small, ofDigitChars_padded] at read

/-- A text before which a run of digits ends, and which is no fraction. -/
def EndsDigits (cs : List Char) : Prop := ∀ c, cs.head? = some c → c.isDigit = false ∧ c ≠ '.'

theorem takeWhile_digits {ds rest : List Char} (digits : ∀ c ∈ ds, c.isDigit = true) (ends : EndsDigits rest) :
    (ds ++ rest).takeWhile Char.isDigit = ds ∧ (ds ++ rest).dropWhile Char.isDigit = rest := by
  rw [List.takeWhile_append_of_pos digits, List.dropWhile_append_of_pos digits]
  cases rest with
  | nil => exact ⟨List.append_nil ds, rfl⟩
  | cons c rest =>
    obtain ⟨other, _⟩ := ends c rfl
    have other := Bool.eq_false_iff.1 other
    rw [List.takeWhile_cons_of_neg other, List.dropWhile_cons_of_neg other]
    exact ⟨List.append_nil ds, rfl⟩

/-- Without the zeros at their end the digits of a fraction are still
its digits. -/
theorem exists_fractionChars {nanos : Nat} (positive : nanos ≠ 0) :
    ∃ ds zeros, fractionChars nanos = '.' :: ds ∧ padded 9 nanos = ds ++ List.replicate zeros '0' ∧ ds ≠ [] := by
  obtain ⟨ds, isKept⟩ : ∃ ds, ds = ((padded 9 nanos).reverse.dropWhile (· == '0')).reverse := ⟨_, rfl⟩
  obtain ⟨cut, isCut⟩ : ∃ cut, cut = (padded 9 nanos).reverse.takeWhile (· == '0') := ⟨_, rfl⟩
  have parts : padded 9 nanos = ds ++ cut.reverse := by
    rw [isKept, isCut, ← List.reverse_append, List.takeWhile_append_dropWhile, List.reverse_reverse]
  have zeros : cut.reverse = List.replicate cut.length '0' := by
    rw [← List.length_reverse]
    refine List.eq_replicate_of_mem fun c member => ?_
    rw [isCut] at member
    have zero := List.mem_takeWhile_imp (List.mem_reverse.1 member)
    exact beq_iff_eq.1 zero
  rw [zeros] at parts
  refine ⟨ds, cut.length, ?_, parts, ?_⟩
  · rw [fractionChars, if_neg positive, isKept]
  · rintro rfl
    have value := ofDigitChars_padded 9 nanos
    rw [parts, List.nil_append, Nat.ofDigitChars_replicate_zero, Nat.mul_zero] at value
    exact positive value.symm

theorem fraction?_fractionChars {nanos : Nat} (small : nanos < 1000000000) {rest : List Char}
    (ends : EndsDigits rest) : fraction? (fractionChars nanos ++ rest) = some (nanos, rest) := by
  by_cases zero : nanos = 0
  · subst zero
    show fraction? rest = some (0, rest)
    unfold fraction?
    split
    · exact absurd rfl (ends _ rfl).2
    · rfl
  · obtain ⟨ds, zeros, chars, parts, filled⟩ := exists_fractionChars zero
    have digits : ∀ c ∈ ds, c.isDigit = true := fun c member =>
      isDigit_of_mem_padded (parts ▸ List.mem_append_left _ member)
    have length : ds.length + zeros = 9 := by
      have all : (padded 9 nanos).length = 9 := length_padded (by decide) small
      rwa [parts, List.length_append, List.length_replicate] at all
    -- The reader fills up the zeros that the writer left out.
    have nine : (ds ++ List.replicate 9 '0').take 9 = padded 9 nanos := by
      rw [parts, List.take_append, List.take_of_length_le (by omega), List.take_replicate]
      congr 2
      omega
    obtain ⟨taken, dropped⟩ := takeWhile_digits digits ends
    have some_digit : ds.isEmpty = false := List.isEmpty_eq_false_iff.2 filled
    have value := ofDigitChars_padded 9 nanos
    rw [Nat.ofDigitChars_eq_foldl] at value
    rw [chars, List.cons_append, fraction?]
    simp only [taken, dropped, some_digit, Bool.false_eq_true, if_false, nine, value]

theorem endsDigits_offsetChars (offset : Int) : EndsDigits (offsetChars offset) := by
  intro c first
  rw [offsetChars] at first
  split at first
  · cases first
    decide
  · split at first
    · cases first
      decide
    · cases first
      decide

theorem offset?_signed {sign : Char} (signed : sign = '+' ∨ sign = '-') {hour minute : Nat} (early : hour ≤ 23)
    (short : minute ≤ 59) : offset? (sign :: padded 2 hour ++ ':' :: padded 2 minute) =
      some (if sign = '-' then -(hour * 3600 + minute * 60 : Int) else hour * 3600 + minute * 60) := by
  have readHour := digits?_padded (by decide : 0 < 2) (by omega : hour < 10 ^ 2) (':' :: padded 2 minute)
  have readMinute := digits?_padded (by decide : 0 < 2) (by omega : minute < 10 ^ 2) []
  rw [List.append_nil] at readMinute
  rw [List.cons_append]
  unfold offset?
  rcases signed with rfl | rfl <;>
    simp [readHour, readMinute, expect?, guard, early, short]

theorem offset?_offsetChars {offset : Int} (whole : offset % 60 = 0) (small : offset.natAbs < 86400) :
    offset? (offsetChars offset) = some offset := by
  have early : offset.natAbs / 3600 ≤ 23 := by omega
  have short : offset.natAbs / 60 % 60 ≤ 59 := by omega
  have parts : offset.natAbs = offset.natAbs / 3600 * 3600 + offset.natAbs / 60 % 60 * 60 := by omega
  rw [offsetChars]
  split
  · next zero => rw [zero]; rfl
  · split
    · next negative =>
      rw [offset?_signed (.inr rfl) early short, if_pos rfl]
      congr 1
      omega
    · next positive =>
      rw [offset?_signed (.inl rfl) early short, if_neg (by decide)]
      congr 1
      omega

theorem ofLocal_local (t : Timestamp) :
    ofLocal t.localDate (t.localSeconds % 86400).toNat t.subsecNanos t.offset = t := by
  obtain ⟨nanos, offset⟩ := t
  simp only [ofLocal, localDate, Date.toDays_ofDays, localSeconds, subsecNanos, mk.injEq, and_true]
  omega

theorem ofParts?_of_isValid {date : Date} {second nanos : Nat} (valid : date.isValid = true) (small : second < 86400)
    (offset : Int) : ofParts? date (second / 3600) (second / 60 % 60) (second % 60) nanos offset =
      some (ofLocal date second nanos offset) := by
  have early : second / 3600 < 24 := by omega
  have short : second / 60 % 60 < 60 ∧ second % 60 < 60 := by omega
  have parts : second / 3600 * 3600 + second / 60 % 60 * 60 + second % 60 = second := by omega
  have plain : ¬second % 60 = 60 := by omega
  simp [ofParts?, valid, early, short, plain, parts, guard]

theorem lt_of_isValid {date : Date} (valid : date.isValid = true) : date.month < 10 ^ 2 ∧ date.day < 10 ^ 2 := by
  simp only [Date.isValid, Bool.and_eq_true, decide_eq_true_eq] at valid
  have days : Date.daysInMonth date.year date.month ≤ 31 := by
    unfold Date.daysInMonth
    split
    · split <;> omega
    all_goals omega
  omega

/-- The text of a timestamp is read back as the timestamp,
offset included. -/
theorem ofRfc3339?_of_rfc3339? {t : Timestamp} {s : String} (written : t.rfc3339? = some s) :
    ofRfc3339? s = some t := by
  rw [rfc3339?] at written
  split at written
  · next writable =>
    obtain rfl := Option.some.inj written
    simp only [isWritable, Bool.and_eq_true, decide_eq_true_eq, beq_iff_eq] at writable
    obtain ⟨⟨⟨first, last⟩, whole⟩, near⟩ := writable
    have valid : t.localDate.isValid = true := Date.isValid_ofDays _
    obtain ⟨monthBound, dayBound⟩ := lt_of_isValid valid
    have date : (⟨t.localDate.year.toNat, t.localDate.month, t.localDate.day⟩ : Date) = t.localDate := by
      rw [Int.toNat_of_nonneg first]
    obtain ⟨second, isSecond⟩ : ∃ second, second = (t.localSeconds % 86400).toNat := ⟨_, rfl⟩
    have small : second < 86400 := by omega
    have year := digits?_padded (by decide : 0 < 4) (by omega : t.localDate.year.toNat < 10 ^ 4)
    have month := digits?_padded (by decide : 0 < 2) monthBound
    have day := digits?_padded (by decide : 0 < 2) dayBound
    have hour := digits?_padded (by decide : 0 < 2) (by omega : second / 3600 < 10 ^ 2)
    have minute := digits?_padded (by decide : 0 < 2) (by omega : second / 60 % 60 < 10 ^ 2)
    have rest := digits?_padded (by decide : 0 < 2) (by omega : second % 60 < 10 ^ 2)
    have nanos := fraction?_fractionChars (by rw [subsecNanos]; omega : t.subsecNanos < 1000000000)
      (endsDigits_offsetChars t.offset)
    rw [ofRfc3339?, String.toList_ofList, ofChars?, ← isSecond]
    simp only [List.append_assoc, List.cons_append, year, month, day, hour, minute, rest, nanos, expect?,
      Option.bind_eq_bind, Option.bind_some, if_true, List.head?_cons, List.drop_one, List.tail_cons,
      offset?_offsetChars whole near, date, ofParts?_of_isValid valid small]
    rw [isSecond, ofLocal_local]
    rfl
  · cases written

end Timestamp

end AccountCache
