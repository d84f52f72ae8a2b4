import RegistryFront.Time.Calendar

/-!
# Dates and day numbers

The date of a day number is a date of the calendar, and its day number is the one it was made from.

Inside an era of 146097 days a day is found by its century, its cycle of four years, its year in the
cycle and its day in the year.  The last year of a cycle has a day more, except in the first three
centuries, whose last cycle has none.
-/

namespace RegistryFront.Time.Calendar

structure EraDay where
  century : Int
  cycle : Int
  year : Int
  day : Int
  century_bounds : 0 ≤ century ∧ century ≤ 3
  cycle_bounds : 0 ≤ cycle ∧ cycle ≤ 24
  year_bounds : 0 ≤ year ∧ year ≤ 3
  day_nonneg : 0 ≤ day
  day_le : day ≤ 364 ∨ day = 365 ∧ year = 3 ∧ (cycle ≠ 24 ∨ century = 3)

namespace EraDay

def number (place : EraDay) : Int :=
  36524 * place.century + 1461 * place.cycle + 365 * place.year + place.day

def yearOfEra (place : EraDay) : Int := 100 * place.century + 4 * place.cycle + place.year

theorem exists_of_number (n : Int) (hnonneg : 0 ≤ n) (hlt : n < 146097) :
    ∃ place : EraDay, n = place.number := by
  have hcentury : 0 ≤ min (n / 36524) 3 ∧ min (n / 36524) 3 ≤ 3 := by omega
  generalize hc : min (n / 36524) 3 = century at hcentury
  have hinCentury : 0 ≤ n - 36524 * century ∧
      (n - 36524 * century < 36524 ∨ century = 3 ∧ n - 36524 * century < 36525) := by
    omega
  generalize hr : n - 36524 * century = rest at hinCentury
  refine ⟨⟨century, rest / 1461, min (rest % 1461 / 365) 3,
    rest % 1461 - 365 * min (rest % 1461 / 365) 3, hcentury, by omega, by omega, by omega,
    by omega⟩, ?_⟩
  simp only [EraDay.number]
  omega

/-- The days that leap years add are taken out before dividing by 365. -/
theorem number_div (place : EraDay) :
    (place.number - place.number / 1460 + place.number / 36524 - place.number / 146096) / 365 =
      place.yearOfEra := by
  obtain ⟨a, c, y, k, ha, hc, hy, hk, hkle⟩ := place
  simp only [number, yearOfEra]
  generalize hn : 36524 * a + 1461 * c + 365 * y + k = n
  -- only on the last day of an era does dividing by 36524 give a century too much
  have hcenturies : n / 36524 - n / 146096 = a := by
    have hn' : n < 36524 * (a + 1) ∨ a = 3 ∧ n = 146096 := by omega
    rcases hn' with hn' | hn'
    · have h : n / 36524 = a := by omega
      have h' : n / 146096 = 0 := by omega
      omega
    · omega
  have hcycles : n / 1460 = 25 * a + (24 * a + 1461 * c + 365 * y + k) / 1460 := by omega
  have hsplit : n - n / 1460 + n / 36524 - n / 146096 =
      36500 * a + (1461 * c + 365 * y + k) - (24 * a + 1461 * c + 365 * y + k) / 1460 := by
    omega
  rw [hsplit]
  omega

/-- The day of the year is what the years before it leave. -/
theorem number_sub (place : EraDay) :
    place.number -
      (365 * place.yearOfEra + place.yearOfEra / 4 - place.yearOfEra / 100) = place.day := by
  obtain ⟨a, c, y, k, ha, hc, hy, hk, hkle⟩ := place
  simp only [number, yearOfEra]
  omega

theorem yearOfEra_bounds (place : EraDay) : 0 ≤ place.yearOfEra ∧ place.yearOfEra < 400 := by
  obtain ⟨a, c, y, k, ha, hc, hy, hk, hkle⟩ := place
  simp only [yearOfEra]
  omega

theorem day_lt (place : EraDay) : place.day ≤ 365 := by
  have := place.day_le
  omega

/-- A year of an era with a 366th day is followed by a leap year in the civil count. -/
theorem leap_of_day (place : EraDay) (h : place.day = 365) (era : Int) :
    isLeapYear (era * 400 + place.yearOfEra + 1) = true := by
  obtain ⟨a, c, y, k, ha, hc, hy, hk, hkle⟩ := place
  simp only [yearOfEra] at h ⊢
  have hfour : (era * 400 + (100 * a + 4 * c + y) + 1) % 4 = 0 := by omega
  have hcentury : (era * 400 + (100 * a + 4 * c + y) + 1) % 100 ≠ 0 ∨
      (era * 400 + (100 * a + 4 * c + y) + 1) % 400 = 0 := by omega
  simp only [isLeapYear, Bool.and_eq_true, Bool.or_eq_true, beq_iff_eq, bne_iff_ne, ne_eq]
  exact ⟨hfour, hcentury⟩

end EraDay

/-- A month counted from March begins `monthStart` days into the year. -/
def monthStart (month : Nat) : Nat := (153 * month + 2) / 5

theorem exists_dateOf (number : Int) :
    ∃ (place : EraDay) (month day : Nat),
      number + 719468 = (number + 719468) / 146097 * 146097 + place.number ∧
        month ≤ 11 ∧ place.day = ((monthStart month + day : Nat) : Int) ∧
        monthStart month + day < monthStart (month + 1) ∧
        dateOf number =
          { year := (number + 719468) / 146097 * 400 + place.yearOfEra + if month < 10 then 0 else 1
            month := if month < 10 then month + 3 else month - 9
            day := day + 1 } := by
  obtain ⟨place, hplace⟩ := EraDay.exists_of_number ((number + 719468) % 146097) (by omega) (by omega)
  have hday := place.day_nonneg
  have hday' := place.day_lt
  obtain ⟨month, hmonth⟩ := Int.eq_ofNat_of_zero_le
    (show 0 ≤ (5 * place.day + 2) / 153 by omega)
  have hstart : (153 * (month : Int) + 2) / 5 = (monthStart month : Int) := rfl
  obtain ⟨day, hinMonth⟩ := Int.eq_ofNat_of_zero_le
    (show 0 ≤ place.day - (monthStart month : Int) by omega)
  have hnext : monthStart (month + 1) = (153 * month + 155) / 5 := rfl
  refine ⟨place, month, day, by omega, by omega, by omega, by omega, ?_⟩
  simp only [dateOf, hplace, place.number_div, place.number_sub, hmonth, hstart, hinMonth,
    Date.mk.injEq]
  refine ⟨?_, ?_, ?_⟩ <;> (repeat' split) <;> omega

theorem dayNumber_dateOf (number : Int) : dayNumber (dateOf number) = number := by
  obtain ⟨place, month, day, hnumber, hmonth, hday, hlt, hdate⟩ := exists_dateOf number
  have hsub := place.number_sub
  have hyear := place.yearOfEra_bounds
  rw [hdate]
  unfold monthStart at *
  simp only [dayNumber]
  generalize (number + 719468) / 146097 = era at *
  by_cases hlate : month < 10
  · have hcount : (month + 3 + 9) % 12 = month := by omega
    simp only [if_pos hlate, hcount]
    rw [if_neg (by omega)]
    omega
  · have hcount : (month - 9 + 9) % 12 = month := by omega
    simp only [if_neg hlate, hcount]
    rw [if_pos (by omega)]
    omega

theorem year_dateOf {number : Int} (hmin : minDay ≤ number) (hmax : number ≤ maxDay) :
    minYear ≤ (dateOf number).year ∧ (dateOf number).year ≤ maxYear := by
  obtain ⟨place, month, day, hnumber, hmonth, hday, hlt, hdate⟩ := exists_dateOf number
  have hsub := place.number_sub
  have hyear := place.yearOfEra_bounds
  have hday' := place.day_lt
  have hend : month < 10 → monthStart (month + 1) ≤ 306 := by unfold monthStart; omega
  have hstart : ¬ month < 10 → 306 ≤ monthStart month := by unfold monthStart; omega
  rw [hdate]
  unfold minDay at hmin
  unfold maxDay at hmax
  unfold minYear maxYear
  dsimp only
  generalize (number + 719468) / 146097 = era at *
  -- only the first and the last era are cut off inside
  have hera : era = -656 ∨ (-655 ≤ era ∧ era ≤ 654) ∨ era = 655 := by omega
  rcases hera with rfl | hera | rfl
  all_goals split <;> omega

theorem day_dateOf (number : Int) :
    (dateOf number).day ≤ daysInMonth (dateOf number).year (dateOf number).month := by
  obtain ⟨place, month, day, hnumber, hmonth, hday, hlt, hdate⟩ := exists_dateOf number
  have hday' := place.day_lt
  have hleap := place.leap_of_day
  rw [hdate]
  unfold monthStart at hlt hday
  unfold daysInMonth
  dsimp only
  by_cases hfebruary : month = 11
  · subst hfebruary
    by_cases hlast : place.day = 365
    · simp only [Nat.reduceLT, if_false, Nat.reduceSub, if_true, hleap hlast]
      omega
    · simp only [Nat.reduceLT, if_false, Nat.reduceSub, if_true]
      split <;> omega
  · rw [if_neg (by split <;> omega)]
    split <;> split <;> omega

theorem isDate_dateOf {number : Int} (hmin : minDay ≤ number) (hmax : number ≤ maxDay) :
    isDate (dateOf number) = true := by
  obtain ⟨hyear, hyear'⟩ := year_dateOf hmin hmax
  have hday := day_dateOf number
  have hparts : (1 ≤ (dateOf number).month ∧ (dateOf number).month ≤ 12) ∧
      1 ≤ (dateOf number).day := by
    obtain ⟨place, month, day, -, hmonth, -, -, hdate⟩ := exists_dateOf number
    rw [hdate]
    dsimp only
    split <;> omega
  simp [isDate, hyear, hyear', hday, hparts]

theorem daysInMonth_le (year : Int) (month : Nat) : daysInMonth year month ≤ 31 := by
  unfold daysInMonth
  repeat' split
  all_goals decide

theorem bounds_of_isDate {date : Date} (h : isDate date = true) :
    (1 ≤ date.month ∧ date.month ≤ 12) ∧ 1 ≤ date.day ∧ date.day ≤ 31 := by
  have hdays := daysInMonth_le date.year date.month
  simp only [isDate, Bool.and_eq_true, decide_eq_true_eq] at h
  omega

end RegistryFront.Time.Calendar
