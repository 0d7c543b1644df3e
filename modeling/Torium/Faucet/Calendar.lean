import Torium.Faucet.Go

/-!
# Dates

The civil date of a day determines the day, and so does its textual form. Days are counted
in eras of 400 years, which all have the same number of days.
-/

namespace Torium.Faucet

/-! ## Civil dates -/

/-- The day number of a civil date. -/
def dayOf (date : Int × Nat × Nat) : Int :=
  let shiftedMonth := if date.2.1 ≤ 2 then date.2.1 + 9 else date.2.1 - 3
  let shiftedYear := if date.2.1 ≤ 2 then date.1 - 1 else date.1
  let yearOfEra := (shiftedYear.fmod 400).toNat
  let dayOfYear := (153 * shiftedMonth + 2) / 5 + date.2.2 - 1
  let dayOfEra := 365 * yearOfEra + yearOfEra / 4 - yearOfEra / 100 + dayOfYear
  shiftedYear.fdiv 400 * 146097 + dayOfEra - 306

theorem yearOfEra_bounds {dayOfEra yearOfEra : Nat} (small : dayOfEra < 146097)
    (year : yearOfEra =
      (dayOfEra - dayOfEra / 1460 + dayOfEra / 36524 - dayOfEra / 146096) / 365) :
    yearOfEra ≤ 399 ∧ 365 * yearOfEra + yearOfEra / 4 - yearOfEra / 100 ≤ dayOfEra ∧
      dayOfEra - (365 * yearOfEra + yearOfEra / 4 - yearOfEra / 100) ≤ 365 := by
  -- Leap years and centuries are counted in days without leap days.
  have leaps : yearOfEra / 4 =
      (dayOfEra - dayOfEra / 1460 + dayOfEra / 36524 - dayOfEra / 146096) / 1460 := by
    rw [year, Nat.div_div_eq_div_mul]
  have centuries : yearOfEra / 100 =
      (dayOfEra - dayOfEra / 1460 + dayOfEra / 36524 - dayOfEra / 146096) / 36500 := by
    rw [year, Nat.div_div_eq_div_mul]
  obtain last | last : dayOfEra = 146096 ∨ dayOfEra < 146096 := by omega
  · subst last
    omega
  · have cycle : dayOfEra / 146096 = 0 := by omega
    have century : dayOfEra / 36524 ≤ 3 := by omega
    have same : (dayOfEra - dayOfEra / 1460 + dayOfEra / 36524 - dayOfEra / 146096) / 36500 =
        dayOfEra / 36524 := by omega
    refine ⟨?_, ?_, ?_⟩ <;> omega

/-- The last day of a long year, counted from March, is a leap day. -/
theorem leap_of_last_day {dayOfEra yearOfEra : Nat} (small : dayOfEra < 146097)
    (year : yearOfEra =
      (dayOfEra - dayOfEra / 1460 + dayOfEra / 36524 - dayOfEra / 146096) / 365)
    (last : dayOfEra - (365 * yearOfEra + yearOfEra / 4 - yearOfEra / 100) = 365) :
    (yearOfEra + 1) % 4 = 0 ∧ ((yearOfEra + 1) % 100 ≠ 0 ∨ (yearOfEra + 1) % 400 = 0) := by
  obtain final | final : dayOfEra = 146096 ∨ dayOfEra < 146096 := by omega
  · subst final
    omega
  · have cycle : dayOfEra / 146096 = 0 := by omega
    rw [cycle, Nat.sub_zero] at year
    generalize count : dayOfEra - dayOfEra / 1460 + dayOfEra / 36524 = days at year
    have leaps : yearOfEra / 4 = days / 1460 := by rw [year, Nat.div_div_eq_div_mul]
    have centuries : yearOfEra / 100 = days / 36500 := by rw [year, Nat.div_div_eq_div_mul]
    have same : days / 36500 = dayOfEra / 36524 := by omega
    have next : dayOfEra / 1460 = days / 1460 + 1 := by omega
    have ends : days % 365 = 364 := by omega
    have block : 1095 ≤ days % 1460 := by omega
    have fourth : days / 365 = 4 * (days / 1460) + 3 := by omega
    rw [year, fourth]
    obtain first | second | third | last : dayOfEra / 36524 = 0 ∨ dayOfEra / 36524 = 1 ∨
        dayOfEra / 36524 = 2 ∨ dayOfEra / 36524 = 3 := by omega
    all_goals omega

theorem month_bounds {dayOfYear shiftedMonth : Nat} (small : dayOfYear ≤ 365)
    (month : shiftedMonth = (5 * dayOfYear + 2) / 153) :
    shiftedMonth ≤ 11 ∧ (153 * shiftedMonth + 2) / 5 ≤ dayOfYear ∧
      dayOfYear < (153 * shiftedMonth + 155) / 5 := by
  omega

/-- A month is counted from March and back. -/
theorem shifted_month {shiftedMonth month : Nat} (small : shiftedMonth ≤ 11)
    (shifted : month = if shiftedMonth < 10 then shiftedMonth + 3 else shiftedMonth - 9) :
    1 ≤ month ∧ month ≤ 12 ∧ (if month ≤ 2 then month + 9 else month - 3) = shiftedMonth := by
  subst shifted
  split_ifs <;> omega

/-- What a civil date is made of. -/
theorem civil_parts (day : Int) : ∃ (era : Int) (yearOfEra dayOfYear shiftedMonth month : Nat),
    yearOfEra ≤ 399 ∧ shiftedMonth ≤ 11 ∧ (153 * shiftedMonth + 2) / 5 ≤ dayOfYear ∧
    dayOfYear < (153 * shiftedMonth + 155) / 5 ∧ dayOfYear ≤ 365 ∧
    (dayOfYear = 365 →
      (yearOfEra + 1) % 4 = 0 ∧ ((yearOfEra + 1) % 100 ≠ 0 ∨ (yearOfEra + 1) % 400 = 0)) ∧
    (month = if shiftedMonth < 10 then shiftedMonth + 3 else shiftedMonth - 9) ∧
    day + 306 = era * 146097 +
      ((365 * yearOfEra + yearOfEra / 4 - yearOfEra / 100 + dayOfYear : Nat) : Int) ∧
    civil day = (era * 400 + yearOfEra + (if month ≤ 2 then 1 else 0), month,
      dayOfYear - (153 * shiftedMonth + 2) / 5 + 1) := by
  obtain ⟨dayOfEra, here⟩ : ∃ n : Nat, (day + 306).fmod 146097 = n :=
    Int.eq_ofNat_of_zero_le (Int.fmod_nonneg_of_pos _ (by decide))
  have small : dayOfEra < 146097 := by
    have bound := Int.fmod_lt_of_pos (day + 306) (by decide : (0 : Int) < 146097)
    omega
  have whole : (day + 306).fdiv 146097 * 146097 + dayOfEra = day + 306 := by
    rw [← here]
    exact Int.fdiv_mul_add_fmod _ _
  generalize yearSame :
    (dayOfEra - dayOfEra / 1460 + dayOfEra / 36524 - dayOfEra / 146096) / 365 = yearOfEra
  obtain ⟨years, low, high⟩ := yearOfEra_bounds small yearSame.symm
  have leap := leap_of_last_day small yearSame.symm
  generalize daySame :
    dayOfEra - (365 * yearOfEra + yearOfEra / 4 - yearOfEra / 100) = dayOfYear at high leap
  generalize monthSame : (5 * dayOfYear + 2) / 153 = shiftedMonth
  obtain ⟨months, early, late⟩ := month_bounds high monthSame.symm
  refine ⟨(day + 306).fdiv 146097, yearOfEra, dayOfYear, shiftedMonth, _, years, months, early,
    late, high, leap, rfl, ?_, ?_⟩
  · omega
  · simp only [civil, here, Int.toNat_natCast, yearSame, daySame, monthSame]

/-- The civil date determines the day. -/
theorem dayOf_civil (day : Int) : dayOf (civil day) = day := by
  obtain ⟨era, yearOfEra, dayOfYear, shiftedMonth, month, years, months, early, -, -, -, shifted,
    whole, same⟩ := civil_parts day
  obtain ⟨-, -, back⟩ := shifted_month months shifted
  have year : (if month ≤ 2 then era * 400 + yearOfEra + (if month ≤ 2 then 1 else 0) - 1
      else era * 400 + yearOfEra + (if month ≤ 2 then 1 else 0)) = yearOfEra + era * 400 := by
    split_ifs <;> omega
  have eras : ((yearOfEra : Int) + era * 400).fdiv 400 = era := by
    rw [Int.add_mul_fdiv_right _ _ (by decide)]
    rw [Int.fdiv_eq_ediv_of_nonneg _ (by decide)]
    omega
  have yearsOfEra : ((yearOfEra : Int) + era * 400).fmod 400 = yearOfEra := by
    rw [Int.add_mul_fmod_self_right, Int.fmod_eq_emod_of_nonneg _ (by decide)]
    omega
  simp only [dayOf, same, back, year, eras, yearsOfEra, Int.toNat_natCast]
  omega

def isLeap (year : Int) : Prop := year % 4 = 0 ∧ (year % 100 ≠ 0 ∨ year % 400 = 0)

instance (year : Int) : Decidable (isLeap year) := inferInstanceAs (Decidable (_ ∧ _))

/-- The number of days of a month. -/
def daysIn (month : Nat) (year : Int) : Nat :=
  if month = 2 then if isLeap year then 29 else 28
  else if month = 4 ∨ month = 6 ∨ month = 9 ∨ month = 11 then 30
  else 31

theorem daysIn_le (month : Nat) (year : Int) : daysIn month year ≤ 31 := by
  unfold daysIn
  split_ifs <;> decide

/-- A civil date is a date. -/
theorem civil_bounds (day : Int) :
    1 ≤ (civil day).2.1 ∧ (civil day).2.1 ≤ 12 ∧ 1 ≤ (civil day).2.2 ∧
      (civil day).2.2 ≤ daysIn (civil day).2.1 (civil day).1 := by
  obtain ⟨era, yearOfEra, dayOfYear, shiftedMonth, month, years, months, early, late, short, leap,
    shifted, -, same⟩ := civil_parts day
  obtain ⟨low, high, back⟩ := shifted_month months shifted
  rw [same]
  refine ⟨low, high, Nat.le_add_left _ _, ?_⟩
  simp only [daysIn, isLeap]
  split_ifs at back ⊢ <;> omega

/-! ## Texts of dates -/

theorem isDigit_of_mem_padded {width n : Nat} {b : UInt8} (member : b ∈ padded width n) :
    isDigit b = true := by
  obtain zero | digit := List.mem_append.mp member
  · rw [List.eq_of_mem_replicate zero]
    decide
  · exact isDigit_of_mem_natText digit

/-- Leading zeros do not change the value. -/
theorem digitsValue?_padded (width n : Nat) : digitsValue? (padded width n) = some n := by
  have digits : padded width n ≠ [] ∧ (padded width n).all isDigit := by
    constructor
    · simp [padded, natText]
    · exact List.all_eq_true.mpr fun b member => isDigit_of_mem_padded member
  have zeros (count : Nat) : (List.replicate count (48 : UInt8)).foldl
      (fun n b => 10 * n + (b.toNat - 48)) 0 = 0 := by
    induction count with
    | zero => rfl
    | succ count ih => exact ih
  have value := digitsValue?_natText n
  rw [digitsValue?, if_pos digits, padded, List.foldl_append, zeros]
  rw [digitsValue?] at value
  split_ifs at value
  exact value

theorem padded_injective {width n m : Nat} (same : padded width n = padded width m) : n = m := by
  have values := congrArg digitsValue? same
  rw [digitsValue?_padded, digitsValue?_padded] at values
  exact Option.some.inj values

theorem dash_not_mem_padded {width n : Nat} : 45 ∉ padded width n :=
  fun member => absurd (isDigit_of_mem_padded member) (by decide)

/-- Texts are split at a mark that comes in neither of their first parts. -/
theorem eq_of_marked {mark : UInt8} {front front' back back' : GoString} (here : mark ∉ front)
    (there : mark ∉ front') (same : front ++ mark :: back = front' ++ mark :: back') :
    front = front' ∧ back = back' := by
  obtain ⟨_ | ⟨_, rest⟩, rfl, tail⟩ | ⟨_ | ⟨_, rest⟩, rfl, tail⟩ :=
    List.append_eq_append_iff.mp same
  · simpa using tail
  · cases (List.cons.inj tail).1
    exact absurd (by simp) there
  · simpa using tail.symm
  · cases (List.cons.inj tail).1
    exact absurd (by simp) here

/-- The text of a date after the sign of its year. -/
def dateText (date : Int × Nat × Nat) : GoString :=
  padded 4 date.1.natAbs ++ 45 :: (padded 2 date.2.1 ++ 45 :: padded 2 date.2.2)

theorem eq_of_dateText {first second : Int × Nat × Nat} (same : dateText first = dateText second) :
    first.1.natAbs = second.1.natAbs ∧ first.2 = second.2 := by
  obtain ⟨years, rest⟩ := eq_of_marked dash_not_mem_padded dash_not_mem_padded same
  obtain ⟨months, days⟩ := eq_of_marked dash_not_mem_padded dash_not_mem_padded rest
  exact ⟨padded_injective years, Prod.ext (padded_injective months) (padded_injective days)⟩

theorem dateText_ne_dash (date : Int × Nat × Nat) (rest : GoString) :
    dateText date ≠ 45 :: rest := by
  intro same
  cases digits : padded 4 date.1.natAbs with
  | nil => simp [padded, natText] at digits
  | cons first others =>
    rw [dateText, digits] at same
    obtain ⟨rfl, -⟩ := List.cons.inj same
    exact dash_not_mem_padded (digits ▸ List.mem_cons_self)

theorem budgetDay_eq (t : Time) : budgetDay t =
    if (civil (dayNumber t)).1 < 0 then 45 :: dateText (civil (dayNumber t))
    else dateText (civil (dayNumber t)) := by
  simp only [budgetDay, dateText]
  split_ifs <;> simp

/-- The text of a day determines it. -/
theorem dayNumber_eq_of_budgetDay {t u : Time} (same : budgetDay t = budgetDay u) :
    dayNumber t = dayNumber u := by
  have dates : civil (dayNumber t) = civil (dayNumber u) := by
    rw [budgetDay_eq, budgetDay_eq] at same
    split_ifs at same with first second second
    · obtain ⟨years, rest⟩ := eq_of_dateText (List.cons.inj same).2
      exact Prod.ext (by omega) rest
    · exact absurd same.symm (dateText_ne_dash _ _)
    · exact absurd same (dateText_ne_dash _ _)
    · obtain ⟨years, rest⟩ := eq_of_dateText same
      exact Prod.ext (by omega) rest
  rw [← dayOf_civil (dayNumber t), dates, dayOf_civil]

end Torium.Faucet
