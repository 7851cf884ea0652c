import Mathlib.Order.Monotone.Basic
import Mathlib.Tactic.IntervalCases
import Mathlib.Tactic.NormNum

/-! # The Gregorian calendar

Dates with their month lengths and leap years, the next date, and the dates counted from
1 January 1970 on.  The number of a date is what the counting gives back (`number_dateOf`), and no
other date has it (`number_injective`). -/

namespace Gregorian

/-! ### Years and months -/

/-- Every fourth year, but of the full centuries only every fourth. -/
def Leap (year : ℤ) : Prop := year % 4 = 0 ∧ (year % 100 ≠ 0 ∨ year % 400 = 0)

instance (year : ℤ) : Decidable (Leap year) := inferInstanceAs (Decidable (_ ∧ _))

/-- The days of a month. -/
def monthLength (year month : ℤ) : ℤ :=
  if month = 2 then (if Leap year then 29 else 28)
  else if month = 4 ∨ month = 6 ∨ month = 9 ∨ month = 11 then 30 else 31

theorem monthLength_pos (year month : ℤ) : 1 ≤ monthLength year month := by
  unfold monthLength
  split_ifs <;> decide

/-- The days of the years from March on that come before the year. -/
def yearStart (year : ℤ) : ℤ := 365 * year + year / 4 - year / 100 + year / 400

/-- The days of the months from March on that come before the month, which is counted from March. -/
def monthStart (month : ℤ) : ℤ := (153 * month + 2) / 5

/-- Every month but February ends where the next one starts. -/
theorem monthLength_eq {year month : ℤ} (h1 : 1 ≤ month) (h12 : month ≤ 12) (h2 : month ≠ 2) :
    monthLength year month =
      monthStart ((if month ≤ 2 then month + 9 else month - 3) + 1) -
        monthStart (if month ≤ 2 then month + 9 else month - 3) := by
  unfold monthLength monthStart
  rw [if_neg h2]
  interval_cases month <;> first | exact absurd rfl h2 | decide

theorem yearStart_succ (year : ℤ) :
    yearStart (year + 1) = yearStart year + (if Leap (year + 1) then 366 else 365) := by
  unfold yearStart Leap
  split_ifs <;> omega

theorem yearStart_mono {y y' : ℤ} (h : y ≤ y') : yearStart y ≤ yearStart y' := by
  unfold yearStart
  omega

theorem monthStart_mono {m m' : ℤ} (h : m ≤ m') : monthStart m ≤ monthStart m' := by
  unfold monthStart
  omega

/-- The days from 1 January 1970 to a date. -/
def dayNumber (year month day : ℤ) : ℤ :=
  (if month ≤ 2 then yearStart (year - 1) + monthStart (month + 9)
    else yearStart year + monthStart (month - 3)) + day - 719469

theorem dayNumber_nextMonth {year month : ℤ} (h1 : 1 ≤ month) (h12 : month < 12) :
    dayNumber year (month + 1) 1 = dayNumber year month (monthLength year month) + 1 := by
  have hfeb := yearStart_succ (year - 1)
  rw [sub_add_cancel] at hfeb
  unfold dayNumber monthLength monthStart
  interval_cases month <;> norm_num <;> split_ifs at hfeb ⊢ <;> omega

theorem dayNumber_nextYear (year : ℤ) :
    dayNumber (year + 1) 1 1 = dayNumber year 12 (monthLength year 12) + 1 := by
  unfold dayNumber monthLength monthStart
  norm_num
  omega

/-! ### Dates -/

/-- A date of the calendar, extended to all years. -/
@[ext]
structure Date where
  year : ℤ
  month : ℤ
  day : ℤ
  month_pos : 1 ≤ month
  month_le : month ≤ 12
  day_pos : 1 ≤ day
  day_le : day ≤ monthLength year month

theorem one_le_one : (1 : ℤ) ≤ 1 := le_rfl

theorem one_le_twelve : (1 : ℤ) ≤ 12 := by decide

namespace Date

/-- The next date. -/
def next (d : Date) : Date :=
  if hday : d.day < monthLength d.year d.month then
    ⟨d.year, d.month, d.day + 1, d.month_pos, d.month_le, by have := d.day_pos; omega, hday⟩
  else if hmonth : d.month < 12 then
    ⟨d.year, d.month + 1, 1, by have := d.month_pos; omega, hmonth, one_le_one,
      monthLength_pos _ _⟩
  else
    ⟨d.year + 1, 1, 1, one_le_one, one_le_twelve, one_le_one, monthLength_pos _ _⟩

/-- The days from 1 January 1970 to a date. -/
def number (d : Date) : ℤ := dayNumber d.year d.month d.day

theorem number_next (d : Date) : d.next.number = d.number + 1 := by
  have hle := d.day_le
  unfold next
  split_ifs with hday hmonth
  · simp only [number, dayNumber]
    omega
  · have hlast : d.day = monthLength d.year d.month := by omega
    simp only [number]
    rw [dayNumber_nextMonth d.month_pos hmonth, hlast]
  · have hlast : d.day = monthLength d.year d.month := by omega
    have hdec : d.month = 12 := by have := d.month_le; omega
    simp only [number]
    rw [dayNumber_nextYear, hlast, hdec]

/-- The year of a date when the years begin with March. -/
def marchYear (d : Date) : ℤ := if d.month ≤ 2 then d.year - 1 else d.year

/-- The month of a date, counted from March. -/
def marchMonth (d : Date) : ℤ := if d.month ≤ 2 then d.month + 9 else d.month - 3

theorem number_eq (d : Date) :
    d.number = yearStart d.marchYear + monthStart d.marchMonth + d.day - 719469 := by
  unfold number dayNumber marchYear marchMonth
  split_ifs <;> rfl

theorem marchMonth_bounds (d : Date) : 0 ≤ d.marchMonth ∧ d.marchMonth ≤ 11 := by
  have h1 := d.month_pos
  have h12 := d.month_le
  unfold marchMonth
  split_ifs <;> omega

theorem day_le_monthStart (d : Date) (h : d.marchMonth < 11) :
    monthStart d.marchMonth + d.day ≤ monthStart (d.marchMonth + 1) := by
  have hday := d.day_le
  have hfeb : d.month ≠ 2 := by
    rintro hfeb
    rw [marchMonth, hfeb] at h
    exact absurd h (by decide)
  rw [monthLength_eq d.month_pos d.month_le hfeb] at hday
  unfold marchMonth
  omega

theorem day_le_yearStart (d : Date) :
    yearStart d.marchYear + monthStart d.marchMonth + d.day ≤ yearStart (d.marchYear + 1) := by
  have hyear := yearStart_succ d.marchYear
  rcases lt_or_ge d.marchMonth 11 with hm | hm
  · have hmonth := d.day_le_monthStart hm
    have hlast : monthStart (d.marchMonth + 1) ≤ monthStart 11 := monthStart_mono (by omega)
    have h11 : monthStart 11 = 337 := by decide
    split_ifs at hyear <;> omega
  · have h1 := d.month_pos
    have h12 := d.month_le
    have hday := d.day_le
    have hfeb : d.month = 2 := by
      unfold marchMonth at hm
      split_ifs at hm <;> omega
    unfold monthLength at hday
    unfold marchYear marchMonth monthStart at *
    rw [hfeb] at hday ⊢
    rw [hfeb] at hyear
    norm_num at hyear hday ⊢
    split_ifs at hyear hday <;> omega

theorem year_le_of_number_eq {d d' : Date} (h : d.number = d'.number) :
    d.marchYear ≤ d'.marchYear := by
  by_contra hlt
  have hyear := d'.day_le_yearStart
  have hmono : yearStart (d'.marchYear + 1) ≤ yearStart d.marchYear := yearStart_mono (by omega)
  have hstart : monthStart 0 ≤ monthStart d.marchMonth := monthStart_mono d.marchMonth_bounds.1
  have hzero : monthStart 0 = 0 := by decide
  have hday := d.day_pos
  rw [number_eq, number_eq] at h
  omega

theorem month_le_of_number_eq {d d' : Date} (h : d.number = d'.number)
    (hyear : d.marchYear = d'.marchYear) : d.marchMonth ≤ d'.marchMonth := by
  by_contra hlt
  have hbound := d.marchMonth_bounds.2
  have hmonth := d'.day_le_monthStart (by omega)
  have hmono : monthStart (d'.marchMonth + 1) ≤ monthStart d.marchMonth :=
    monthStart_mono (by omega)
  have hday := d.day_pos
  rw [number_eq, number_eq, hyear] at h
  omega

/-- Two dates have different numbers. -/
theorem number_injective : Function.Injective number := by
  intro d d' h
  have hyear := le_antisymm (year_le_of_number_eq h) (year_le_of_number_eq h.symm)
  have hmonth := le_antisymm (month_le_of_number_eq h hyear)
    (month_le_of_number_eq h.symm hyear.symm)
  have hday : d.day = d'.day := by
    rw [number_eq, number_eq, hyear, hmonth] at h
    omega
  have h1 := d.month_pos
  have h12 := d.month_le
  have h1' := d'.month_pos
  have h12' := d'.month_le
  unfold marchMonth at hmonth
  unfold marchYear at hyear
  refine Date.ext ?_ ?_ hday <;> split_ifs at hyear hmonth <;> omega

end Date

/-! ### Counting the days -/

/-- 1 January 1970. -/
def epoch : Date := ⟨1970, 1, 1, one_le_one, one_le_twelve, one_le_one, monthLength_pos 1970 1⟩

/-- The date of a day, counted from 1 January 1970. -/
def dateOf (n : ℕ) : Date := Date.next^[n] epoch

theorem dateOf_succ (n : ℕ) : dateOf (n + 1) = (dateOf n).next :=
  Function.iterate_succ_apply' Date.next n epoch

theorem number_dateOf (n : ℕ) : (dateOf n).number = n := by
  induction n with
  | zero => decide
  | succ n ih => rw [dateOf_succ, Date.number_next, ih, Nat.cast_succ]

theorem dateOf_injective : Function.Injective dateOf := by
  intro n m h
  have hnumber := congrArg Date.number h
  rw [number_dateOf, number_dateOf] at hnumber
  exact Nat.cast_injective hnumber

end Gregorian
