import AccountCache.Calendar

namespace AccountCache

namespace Date

/-- A day of an era lies in a century, in a group of four years, in a year,
and in it. Only the last year of a group has a leap day, and not that of a
century, unless it is the last. -/
theorem exists_parts {day : Int} (lower : 0 ≤ day) (upper : day < 146097) :
    ∃ century group year rest : Int, (0 ≤ century ∧ century ≤ 3) ∧ (0 ≤ group ∧ group ≤ 24) ∧
      (0 ≤ year ∧ year ≤ 3) ∧ (0 ≤ rest ∧ rest ≤ 365) ∧
      (rest = 365 → year = 3 ∧ (group = 24 → century = 3)) ∧
      day = 36524 * century + 1461 * group + 365 * year + rest := by
  -- The last day of an era and that of a group of four years lie beyond what the quotients count.
  obtain ⟨century, inCentury⟩ : ∃ century, century = min (day / 36524) 3 := ⟨_, rfl⟩
  obtain ⟨left, inLeft⟩ : ∃ left, left = day - 36524 * century := ⟨_, rfl⟩
  have bounds : 0 ≤ left ∧ left ≤ 36524 ∧ (left = 36524 → century = 3) := by omega
  obtain ⟨year, inYear⟩ : ∃ year, year = min (left % 1461 / 365) 3 := ⟨_, rfl⟩
  refine ⟨century, left / 1461, year, left % 1461 - 365 * year, ?_, ?_, ?_, ?_, ?_, ?_⟩
  · omega
  · omega
  · omega
  · omega
  · omega
  · omega

theorem yearOfEra_eq {day century group year rest : Int} (inCentury : 0 ≤ century ∧ century ≤ 3)
    (inGroup : 0 ≤ group ∧ group ≤ 24) (inYear : 0 ≤ year ∧ year ≤ 3) (inRest : 0 ≤ rest ∧ rest ≤ 365)
    (leap : rest = 365 → year = 3 ∧ (group = 24 → century = 3))
    (parts : day = 36524 * century + 1461 * group + 365 * year + rest) :
    (day - day / 1460 + day / 36524 - day / 146096) / 365 = 100 * century + 4 * group + year := by
  have centuries : day / 36524 - day / 146096 = century := by
    by_cases last : day = 146096
    · subst last
      omega
    · have era : day / 146096 = 0 := by omega
      have whole : day / 36524 = century := by omega
      omega
  by_cases late : 24 * century + group + 365 * year + rest < 1460
  · have groups : day / 1460 = 25 * century + group := by omega
    omega
  · have groups : day / 1460 = 25 * century + group + 1 := by omega
    omega

/-- A day of an era lies in a year of it, and a leap day in a leap year. -/
theorem exists_yearOfEra {day : Int} (lower : 0 ≤ day) (upper : day < 146097) :
    ∃ year rest : Int, (day - day / 1460 + day / 36524 - day / 146096) / 365 = year ∧
      (0 ≤ year ∧ year < 400) ∧ (0 ≤ rest ∧ rest ≤ 365) ∧ day = 365 * year + year / 4 - year / 100 + rest ∧
      (rest = 365 → (year + 1) % 4 = 0 ∧ ((year + 1) % 100 ≠ 0 ∨ year = 399)) := by
  obtain ⟨century, group, year, rest, inCentury, inGroup, inYear, inRest, leap, parts⟩ := exists_parts lower upper
  have groups : (100 * century + 4 * group + year) / 4 = 25 * century + group := by omega
  have centuries : (100 * century + 4 * group + year) / 100 = century := by omega
  refine ⟨_, rest, yearOfEra_eq inCentury inGroup inYear inRest leap parts, ?_, inRest, ?_, ?_⟩
  · omega
  · omega
  · intro last
    have leap := leap last
    omega

theorem ofDays_eq (days : Int) :
    ∃ era year rest month : Int, (0 ≤ year ∧ year < 400) ∧ (0 ≤ rest ∧ rest ≤ 365) ∧
      (rest = 365 → (year + 1) % 4 = 0 ∧ ((year + 1) % 100 ≠ 0 ∨ year = 399)) ∧
      days + 719468 = era * 146097 + (365 * year + year / 4 - year / 100) + rest ∧
      month = (5 * rest + 2) / 153 ∧
      ofDays days = ⟨if month < 10 then year + era * 400 else year + era * 400 + 1,
        (if month < 10 then month + 3 else month - 9).toNat, (rest - (153 * month + 2) / 5 + 1).toNat⟩ := by
  have lower : 0 ≤ (days + 719468) % 146097 := by omega
  have upper : (days + 719468) % 146097 < 146097 := by omega
  obtain ⟨year, rest, isYear, inEra, inYear, parts, leap⟩ := exists_yearOfEra lower upper
  have isRest : (days + 719468) % 146097 - (365 * year + year / 4 - year / 100) = rest := by omega
  refine ⟨(days + 719468) / 146097, year, rest, _, inEra, inYear, leap, by omega, rfl, ?_⟩
  simp only [ofDays, isYear, isRest]

theorem toDays_eq {year' era year month' : Int} {month day : Nat} (inEra : 0 ≤ year ∧ year < 400)
    (isYear : (if month ≤ 2 then year' - 1 else year') = year + era * 400)
    (isMonth : ((month : Int) + 9) % 12 = month') :
    (⟨year', month, day⟩ : Date).toDays =
      era * 146097 + (365 * year + year / 4 - year / 100) + ((153 * month' + 2) / 5 + day - 1) - 719468 := by
  have ofEra : (year + era * 400) % 400 = year := by omega
  have eras : (year + era * 400) / 400 = era := by omega
  simp only [toDays, isYear, isMonth, ofEra, eras]
  omega

theorem toDays_ofDays (days : Int) : (ofDays days).toDays = days := by
  obtain ⟨era, year, rest, month, inEra, inYear, _, parts, isMonth, date⟩ := ofDays_eq days
  have first : 1 ≤ rest - (153 * month + 2) / 5 + 1 := by omega
  have isYear : (if (if month < 10 then month + 3 else month - 9).toNat ≤ 2 then
      (if month < 10 then year + era * 400 else year + era * 400 + 1) - 1
      else if month < 10 then year + era * 400 else year + era * 400 + 1) = year + era * 400 := by
    split <;> split <;> omega
  have number : (((if month < 10 then month + 3 else month - 9).toNat : Int) + 9) % 12 = month := by
    split <;> omega
  rw [date, toDays_eq inEra isYear number]
  omega

/-- Months other than February, counted from March, are as long as the days
before them tell. February is the last month of such a year, which is why
its length is a matter of its own. -/
theorem daysInMonth_eq (year : Int) {month : Int} (lower : 0 ≤ month) (upper : month ≤ 10) :
    (daysInMonth year (if month < 10 then month + 3 else month - 9).toNat : Int) =
      (153 * (month + 1) + 2) / 5 - (153 * month + 2) / 5 := by
  have months : month = 0 ∨ month = 1 ∨ month = 2 ∨ month = 3 ∨ month = 4 ∨ month = 5 ∨ month = 6 ∨ month = 7 ∨
    month = 8 ∨ month = 9 ∨ month = 10 := by omega
  rcases months with rfl | rfl | rfl | rfl | rfl | rfl | rfl | rfl | rfl | rfl | rfl <;> rfl

theorem isValid_ofDays (days : Int) : (ofDays days).isValid = true := by
  obtain ⟨era, year, rest, month, inEra, inYear, leap, parts, isMonth, date⟩ := ofDays_eq days
  have bounds : 0 ≤ month ∧ month ≤ 11 := by omega
  have last : (rest - (153 * month + 2) / 5 + 1).toNat ≤ daysInMonth
      (if month < 10 then year + era * 400 else year + era * 400 + 1)
      (if month < 10 then month + 3 else month - 9).toNat := by
    -- Only for the last month, which is February, does the year matter.
    by_cases february : month = 11
    · subst february
      show _ ≤ if isLeap (year + era * 400 + 1) then 29 else 28
      by_cases leapDay : rest = 365
      · have leapYear : isLeap (year + era * 400 + 1) = true := by
          have leap := leap leapDay
          simp only [isLeap, Bool.and_eq_true, Bool.or_eq_true, beq_iff_eq, bne_iff_ne]
          omega
        rw [if_pos leapYear]
        omega
      · split <;> omega
    · have length := daysInMonth_eq (if month < 10 then year + era * 400 else year + era * 400 + 1) bounds.1
        (by omega : month ≤ 10)
      omega
  rw [date]
  simp only [isValid, Bool.and_eq_true, decide_eq_true_eq]
  refine ⟨⟨⟨?_, ?_⟩, ?_⟩, last⟩
  · split <;> omega
  · split <;> omega
  · omega

end Date

end AccountCache
