import FirewallLLM.Binary64
import FirewallLLM.CivilDays
import Mathlib.Algebra.Order.Floor.Semifield
import Mathlib.Data.Rat.Floor

/-! # Buckets of days

The date of a time is computed three times: `day_string` of `router.rs` and of `metering.rs` take
the time as a float, and `iso_now` of `audit.rs` takes the whole seconds of the clock.

`day_buckets`: all three compute the date of the calendar, so that two times are in one bucket
exactly when they are on the same day.  The float of a reading of the clock is rounded: just before
midnight it is the next day's. -/

namespace FirewallLLM

/-! ### The three computations -/

/-- `unix_secs as i64`: without the fraction, and cut to the range. -/
def asI64 (x : ℚ) : ℤ :=
  max (-2 ^ 63) (min (2 ^ 63 - 1) (if 0 ≤ x then ⌊x⌋ else ⌈x⌉))

/-- `day_string` of `router.rs`. -/
def Routing.dayString (unixSecs : ℚ) : String :=
  let secs := asI64 unixSecs
  let days := secs / 86400
  let z := days + 719468
  let era := z / 146097
  let doe := z % 146097
  let yoe := (doe - doe.tdiv 1460 + doe.tdiv 36524 - doe.tdiv 146096).tdiv 365
  let y := yoe + era * 400
  let doy := doe - (365 * yoe + yoe.tdiv 4 - yoe.tdiv 100)
  let mp := (5 * doy + 2).tdiv 153
  let d := doy - (153 * mp + 2).tdiv 5 + 1
  let m := if mp < 10 then mp + 3 else mp - 9
  let year := if m ≤ 2 then y + 1 else y
  String.ofList (Quota.zeroPad 4 year ++ Quota.zeroPad 2 m ++ Quota.zeroPad 2 d)

/-- `day_string` of `metering.rs`. -/
def Metering.dayString (unixSecs : ℚ) : String := Quota.dayString (asI64 unixSecs)

/-- The date that `iso_now` prints. -/
def AuditLog.isoDate (secs : ℕ) : List Char :=
  let days := secs / 86400
  let z := (days : ℤ) + 719468
  let era := z.tdiv 146097
  let doe := z.tmod 146097
  let yoe := (doe - doe.tdiv 1460 + doe.tdiv 36524 - doe.tdiv 146096).tdiv 365
  let y := yoe + era * 400
  let doy := doe - (365 * yoe + yoe.tdiv 4 - yoe.tdiv 100)
  let mp := (5 * doy + 2).tdiv 153
  let d := doy - (153 * mp + 2).tdiv 5 + 1
  let m := if mp < 10 then mp + 3 else mp - 9
  let year := if m ≤ 2 then y + 1 else y
  Quota.zeroPad 4 year ++ '-' :: Quota.zeroPad 2 m ++ '-' :: Quota.zeroPad 2 d

/-- The time of day that `iso_now` prints. -/
def AuditLog.isoClock (rem : ℕ) : List Char :=
  Quota.zeroPad 2 ((rem / 3600 : ℕ) : ℤ) ++ ':' :: Quota.zeroPad 2 ((rem % 3600 / 60 : ℕ) : ℤ) ++
    ':' :: Quota.zeroPad 2 ((rem % 60 : ℕ) : ℤ)

/-- `iso_now`. -/
def AuditLog.isoNow (secs : ℕ) : String :=
  String.ofList (AuditLog.isoDate secs ++ 'T' :: AuditLog.isoClock (secs % 86400) ++ ['Z'])

/-- A time from 1970 on, as `day_string` gets it; the seconds are then counted in 64 bits with a
sign. -/
structure UnixTime where
  secs : ℚ
  nonneg : 0 ≤ secs
  inRange : secs ≤ 2 ^ 63

namespace UnixTime

/-- The day, counted from 1 January 1970. -/
def day (t : UnixTime) : ℕ := ⌊t.secs / 86400⌋₊

/-- The cut to the range stays on the last day. -/
theorem asI64_div (t : UnixTime) : asI64 t.secs / 86400 = t.day := by
  have hfloor : ((⌊t.secs⌋₊ : ℕ) : ℤ) = ⌊t.secs⌋ := Int.natCast_floor_eq_floor t.nonneg
  have hle : ⌊t.secs⌋ ≤ 2 ^ 63 := Int.floor_le_iff.mpr (by
    have hrange := t.inRange
    push_cast
    linarith)
  have hday : ⌊t.secs⌋₊ / 86400 = t.day := (Nat.floor_div_ofNat t.secs 86400).symm
  unfold asI64
  rw [if_pos t.nonneg, ← hfloor, ← hday]
  omega

theorem day_eq_iff (t : UnixTime) (n : ℕ) :
    t.day = n ↔ 86400 * n ≤ t.secs ∧ t.secs < 86400 * (n + 1) := by
  rw [day, Nat.floor_eq_iff (div_nonneg t.nonneg (by norm_num)), le_div_iff₀ (by norm_num),
    div_lt_iff₀ (by norm_num), mul_comm (n : ℚ), mul_comm ((n : ℚ) + 1)]

end UnixTime

/-- What the clock reads: seconds since 1970, counted in 64 bits with a sign, and nanoseconds. -/
structure ClockReading where
  secs : ℕ
  nanos : ℕ
  secs_lt : secs < 2 ^ 63
  nanos_lt : nanos < 10 ^ 9

namespace ClockReading

open Binary64 (nearest nearest_nonneg nearest_natCast nearest_le_two_pow nearest_le_intCast
  intCast_le_nearest)

/-- `as_secs_f64`. -/
def asSecsF64 (r : ClockReading) : ℚ := nearest (nearest r.secs + nearest (r.nanos / 10 ^ 9))

theorem fraction_le_one (r : ClockReading) : nearest ((r.nanos : ℚ) / 10 ^ 9) ≤ 1 := by
  have hle : (r.nanos : ℚ) / 10 ^ 9 ≤ 1 := by
    rw [div_le_one₀ (by norm_num)]
    exact_mod_cast r.nanos_lt.le
  exact nearest_le_two_pow (k := 0) (by positivity) (by simpa using hle)

theorem fraction_nonneg (r : ClockReading) : 0 ≤ nearest ((r.nanos : ℚ) / 10 ^ 9) :=
  nearest_nonneg (by positivity)

theorem secs_le_two_pow (r : ClockReading) : nearest (r.secs : ℚ) ≤ 2 ^ 63 :=
  nearest_le_two_pow r.secs.cast_nonneg (by exact_mod_cast r.secs_lt.le)

theorem asSecsF64_le (r : ClockReading) : r.asSecsF64 ≤ 2 ^ 63 := by
  have hnonneg : 0 ≤ nearest (r.secs : ℚ) + nearest ((r.nanos : ℚ) / 10 ^ 9) :=
    add_nonneg (nearest_nonneg r.secs.cast_nonneg) r.fraction_nonneg
  have hle : nearest (r.secs : ℚ) + nearest ((r.nanos : ℚ) / 10 ^ 9) ≤ 2 ^ 63 + 1 :=
    add_le_add r.secs_le_two_pow r.fraction_le_one
  exact Binary64.nearest_le_two_pow_of_le (by norm_num) hnonneg hle

/-- The time that `day_string` gets. -/
def asFloat (r : ClockReading) : UnixTime where
  secs := r.asSecsF64
  nonneg := nearest_nonneg (add_nonneg (nearest_nonneg r.secs.cast_nonneg) r.fraction_nonneg)
  inRange := r.asSecsF64_le

/-- The float of a reading is in the second that it is read in, or at its end. -/
theorem asSecsF64_bounds (r : ClockReading) (h : r.secs + 1 < 2 ^ 53) :
    r.secs ≤ r.asSecsF64 ∧ r.asSecsF64 ≤ r.secs + 1 := by
  have hsecs : nearest (r.secs : ℚ) = r.secs := nearest_natCast (Nat.lt_of_succ_lt h)
  have hfraction := r.fraction_le_one
  have hfraction0 := r.fraction_nonneg
  have hlt : (r.secs : ℚ) + 1 < 2 ^ 53 := by exact_mod_cast h
  have hpos : (0 : ℚ) ≤ r.secs := r.secs.cast_nonneg
  unfold asSecsF64
  rw [hsecs]
  constructor
  · have hle := intCast_le_nearest (n := r.secs)
      (x := r.secs + nearest ((r.nanos : ℚ) / 10 ^ 9)) (by linarith) (by linarith)
      (by push_cast; linarith)
    exact_mod_cast hle
  · have hle := nearest_le_intCast (n := r.secs + 1)
      (x := r.secs + nearest ((r.nanos : ℚ) / 10 ^ 9)) (by linarith) (by linarith)
      (by push_cast; linarith)
    exact_mod_cast hle

/-- The float is on another day exactly if it is rounded up to midnight. -/
theorem day_asFloat_iff (r : ClockReading) (h : r.secs + 1 < 2 ^ 53) :
    r.asFloat.day = r.secs / 86400 ↔ r.asFloat.secs ≠ 86400 * ((r.secs / 86400 : ℕ) + 1) := by
  obtain ⟨hlow, hhigh⟩ := r.asSecsF64_bounds h
  have hmidnight : 86400 * (r.secs / 86400) ≤ r.secs := Nat.mul_div_le r.secs 86400
  have hnext : r.secs + 1 ≤ 86400 * (r.secs / 86400 + 1) := by omega
  have hmidnight' : 86400 * ((r.secs / 86400 : ℕ) : ℚ) ≤ r.secs := by exact_mod_cast hmidnight
  have hnext' : (r.secs : ℚ) + 1 ≤ 86400 * ((r.secs / 86400 : ℕ) + 1) := by exact_mod_cast hnext
  rw [UnixTime.day_eq_iff]
  constructor
  · rintro ⟨-, hlt⟩
    exact hlt.ne
  · intro hne
    exact ⟨hmidnight'.trans hlow, lt_of_le_of_ne (hhigh.trans hnext') hne⟩

end ClockReading

/-! ### The calendar -/

namespace Quota

open Gregorian

theorem daysFromCivil_eq (year month day : ℤ) :
    daysFromCivil (year, month, day) = dayNumber year month day := by
  unfold daysFromCivil dayNumber yearStart monthStart
  dsimp only
  split_ifs <;> omega

theorem civil_valid (days : ℤ) :
    ∃ date : Date, civil days = (date.year, date.month, date.day) := by
  obtain ⟨era, yoe, doy, hyear, hcivil⟩ := civil_eq days
  have hdoy0 := hyear.doy_nonneg
  have hdoy := hyear.doy_le
  have hday0 : 0 ≤ doy - monthStart ((5 * doy + 2) / 153) := by
    unfold monthStart
    omega
  have hday : doy + 1 ≤ monthStart ((5 * doy + 2) / 153 + 1) := by
    unfold monthStart
    omega
  have hmp : 0 ≤ (5 * doy + 2) / 153 ∧ (5 * doy + 2) / 153 ≤ 11 := by omega
  have hfeb : (5 * doy + 2) / 153 = 11 → 337 ≤ doy := by omega
  rw [hcivil]
  clear hcivil
  change ∃ date : Date, (_, _, doy - monthStart ((5 * doy + 2) / 153) + 1) = _
  generalize (5 * doy + 2) / 153 = mp at hday0 hday hmp hfeb ⊢
  by_cases hm : mp < 10
  · refine ⟨⟨yoe + era * 400, mp + 3, doy - monthStart mp + 1, by omega, by omega, by omega, ?_⟩,
      ?_⟩
    · rw [monthLength_eq (by omega) (by omega) (by omega), if_neg (by omega), add_sub_cancel_right]
      omega
    · rw [if_pos hm, if_neg (by omega)]
  · refine ⟨⟨yoe + era * 400 + 1, mp - 9, doy - monthStart mp + 1, by omega, by omega, by omega,
      ?_⟩, ?_⟩
    · by_cases hmonth : mp = 11
      · have hleap := hyear.leap
        rw [hmonth] at hday ⊢
        unfold monthLength monthStart at *
        norm_num
        split_ifs with hyes
        · omega
        · have hno : ¬ Leap (yoe + 1) := fun h => hyes (by unfold Leap at h ⊢; omega)
          have h365 : doy ≠ 365 := fun h => hno (hleap h)
          omega
      · rw [monthLength_eq (by omega) (by omega) (by omega), if_pos (by omega), sub_add_cancel]
        omega
    · rw [if_neg hm, if_pos (by omega)]

/-- **The computation finds the date of the day.** -/
theorem civil_dateOf (n : ℕ) :
    civil n = ((dateOf n).year, (dateOf n).month, (dateOf n).day) := by
  obtain ⟨date, hdate⟩ := civil_valid n
  have hnumber : date.number = (dateOf n).number := by
    rw [number_dateOf, Date.number, ← daysFromCivil_eq, ← hdate]
    exact (civil_spec n).2.2
  rw [hdate, Date.number_injective hnumber]

/-- A date with a separator between its parts. -/
def dateText (separator : List Char) (date : Date) : List Char :=
  zeroPad 4 date.year ++ (separator ++ zeroPad 2 date.month) ++ (separator ++ zeroPad 2 date.day)

theorem length_month (date : Date) : (zeroPad 2 date.month).length = 2 := by
  have h1 := date.month_pos
  have h12 := date.month_le
  exact length_zeroPad_two (by omega) (by omega)

theorem length_day (date : Date) : (zeroPad 2 date.day).length = 2 := by
  have h1 := date.day_pos
  have hle := date.day_le
  have h31 : monthLength date.year date.month ≤ 31 := by
    unfold monthLength
    split_ifs <;> decide
  exact length_zeroPad_two (by omega) (by omega)

theorem dateText_injective (separator : List Char) :
    Function.Injective (dateText separator) := by
  intro date date' h
  obtain ⟨hmonths, hday⟩ := List.append_inj' h
    (by rw [List.length_append, List.length_append, length_day, length_day])
  obtain ⟨hyear, hmonth⟩ := List.append_inj' hmonths
    (by rw [List.length_append, List.length_append, length_month, length_month])
  exact Date.ext (zeroPad_inj hyear) (zeroPad_inj (List.append_cancel_left hmonth))
    (zeroPad_inj (List.append_cancel_left hday))

theorem text_inj {separator : List Char} {n m : ℕ} :
    dateText separator (dateOf n) = dateText separator (dateOf m) ↔ n = m :=
  ((dateText_injective separator).comp dateOf_injective).eq_iff

end Quota

/-! ### The buckets -/

namespace UnixTime

open Gregorian
open Quota (dateText civil zeroPad)

theorem dayString_metering (t : UnixTime) :
    Metering.dayString t.secs = String.ofList (dateText [] (dateOf t.day)) := by
  rw [Metering.dayString, Quota.dayString_eq, asI64_div, Quota.civil_dateOf]
  rfl

theorem dayString_router (t : UnixTime) :
    Routing.dayString t.secs = String.ofList (dateText [] (dateOf t.day)) :=
  t.dayString_metering

/-- Over the times from 1970 on it makes no difference how a division rounds. -/
theorem isoDate_eq (n : ℕ) :
    AuditLog.isoDate n =
      zeroPad 4 (civil (n / 86400 : ℕ)).1 ++ '-' :: zeroPad 2 (civil (n / 86400 : ℕ)).2.1 ++
        '-' :: zeroPad 2 (civil (n / 86400 : ℕ)).2.2 := by
  have hz : 0 ≤ ((n / 86400 : ℕ) : ℤ) + 719468 := by omega
  unfold AuditLog.isoDate civil
  dsimp only
  rw [Int.tdiv_eq_ediv_of_nonneg hz, Int.tmod_eq_emod_of_nonneg hz]

theorem isoDate_audit (n : ℕ) : AuditLog.isoDate n = dateText ['-'] (dateOf (n / 86400)) := by
  rw [isoDate_eq, Quota.civil_dateOf]
  rfl

/-- **All three computations give the date of the calendar, and tell the days apart; of a reading
of the clock they give the same date unless its float is the next midnight.** -/
theorem day_buckets :
    (∀ t : UnixTime,
      Routing.dayString t.secs = String.ofList (dateText [] (dateOf t.day)) ∧
      Metering.dayString t.secs = String.ofList (dateText [] (dateOf t.day))) ∧
    (∀ n : ℕ, AuditLog.isoNow n = String.ofList (dateText ['-'] (dateOf (n / 86400)) ++
      'T' :: AuditLog.isoClock (n % 86400) ++ ['Z'])) ∧
    (∀ r : ClockReading, r.secs + 1 < 2 ^ 53 → (r.asFloat.day = r.secs / 86400 ↔
      r.asFloat.secs ≠ 86400 * ((r.secs / 86400 : ℕ) + 1))) ∧
    (dateOf 0 = epoch ∧ ∀ n, dateOf (n + 1) = (dateOf n).next) ∧
    (∀ s t : UnixTime,
      (Routing.dayString s.secs = Routing.dayString t.secs ↔ s.day = t.day) ∧
      (Metering.dayString s.secs = Metering.dayString t.secs ↔ s.day = t.day)) ∧
    ∀ n m : ℕ, AuditLog.isoDate n = AuditLog.isoDate m ↔ n / 86400 = m / 86400 := by
  refine ⟨fun t => ⟨t.dayString_router, t.dayString_metering⟩, fun n => ?_,
    ClockReading.day_asFloat_iff, ⟨rfl, dateOf_succ⟩, fun s t => ⟨?_, ?_⟩, fun n m => ?_⟩
  · rw [AuditLog.isoNow, isoDate_audit]
  · rw [dayString_router, dayString_router, String.ofList_inj]
    exact Quota.text_inj
  · rw [dayString_metering, dayString_metering, String.ofList_inj]
    exact Quota.text_inj
  · rw [isoDate_audit, isoDate_audit]
    exact Quota.text_inj

/-- The last nanosecond of 21 September 2026. -/
def late : ClockReading := ⟨1790035199, 999999999, by norm_num, by norm_num⟩

/-- Its float is the next midnight, and the buckets are those of the next day. -/
theorem late_rounded_up : ¬ ∀ r : ClockReading,
    Routing.dayString r.asFloat.secs = String.ofList (dateText [] (dateOf (r.secs / 86400))) ∧
      Metering.dayString r.asFloat.secs =
        String.ofList (dateText [] (dateOf (r.secs / 86400))) ∧
      AuditLog.isoDate r.secs = dateText ['-'] (dateOf (r.secs / 86400)) := by
  intro h
  have hsame := (h late).1
  have hmidnight : late.asFloat.secs = 1790035200 := by decide +kernel
  have hday : late.asFloat.day = 20718 := by
    rw [day_eq_iff, hmidnight]
    norm_num
  rw [dayString_router, hday, String.ofList_inj, Quota.text_inj] at hsame
  revert hsame
  decide

end UnixTime

end FirewallLLM
