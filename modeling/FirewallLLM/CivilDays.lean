import FirewallLLM.Metering
import FirewallLLM.Gregorian
import Mathlib.Tactic.IntervalCases
import Mathlib.Tactic.NormNum

/-! # Days and dates

`day_string` turns the number of a day into the date that the keys of the counters carry.  The
date determines the day (`daysFromCivil_civil`), so that two times have the same string exactly
when they fall on the same day (`dayString_inj`). -/

namespace FirewallLLM.Quota

/-! ### The date of a day -/

/-- The year, the month and the day of the month that `day_string` prints. -/
def civil (days : ℤ) : ℤ × ℤ × ℤ :=
  let z := days + 719468
  let era := z / 146097
  let doe := z % 146097
  let yoe := (doe - doe.tdiv 1460 + doe.tdiv 36524 - doe.tdiv 146096).tdiv 365
  let y := yoe + era * 400
  let doy := doe - (365 * yoe + yoe.tdiv 4 - yoe.tdiv 100)
  let mp := (5 * doy + 2).tdiv 153
  let d := doy - (153 * mp + 2).tdiv 5 + 1
  let m := if mp < 10 then mp + 3 else mp - 9
  (if m ≤ 2 then y + 1 else y, m, d)

theorem dayString_eq (secs : ℤ) :
    dayString secs = String.ofList (zeroPad 4 (civil (secs / 86400)).1 ++
      zeroPad 2 (civil (secs / 86400)).2.1 ++ zeroPad 2 (civil (secs / 86400)).2.2) := rfl

/-- The day of a date. -/
def daysFromCivil (date : ℤ × ℤ × ℤ) : ℤ :=
  let y := if date.2.1 ≤ 2 then date.1 - 1 else date.1
  let yoe := y % 400
  let mp := if 2 < date.2.1 then date.2.1 - 3 else date.2.1 + 9
  let doy := (153 * mp + 2) / 5 + date.2.2 - 1
  y / 400 * 146097 + (365 * yoe + yoe / 4 - yoe / 100 + doy) - 719468

section Year

variable {doe yoe e f g : ℤ}

theorem yoe_bounds (h0 : 0 ≤ doe) (h1 : doe < 146097)
    (hy : yoe = (doe - doe / 1460 + doe / 36524 - doe / 146096) / 365) :
    0 ≤ yoe ∧ yoe < 400 := by
  omega

theorem leapDays_bounds (h0 : 0 ≤ doe) (h1 : doe < 146097) (he : e = doe / 1460)
    (hf : f = doe / 36524) (hg : g = doe / 146096) (hy : yoe = (doe - e + f - g) / 365) :
    f = yoe / 100 + g ∧ 0 ≤ e - yoe / 4 ∧ e - yoe / 4 ≤ 1 := by
  have h4 : yoe / 4 = (doe - e + f - g) / 1460 := by
    rw [hy, Int.ediv_ediv_of_nonneg (by norm_num)]
    norm_num
  have h100 : yoe / 100 = (doe - e + f - g) / 36500 := by
    rw [hy, Int.ediv_ediv_of_nonneg (by norm_num)]
    norm_num
  refine ⟨?_, ?_⟩
  · -- the centuries, one by one
    rw [h100]
    have hf0 : 0 ≤ f := by omega
    have hf4 : f ≤ 4 := by omega
    clear h4 h100 hy
    interval_cases f <;> omega
  · rw [h4]
    omega

theorem doy_bounds (h0 : 0 ≤ doe) (h1 : doe < 146097) (he : e = doe / 1460)
    (hf : f = doe / 36524) (hg : g = doe / 146096) (hy : yoe = (doe - e + f - g) / 365) :
    0 ≤ doe - (365 * yoe + yoe / 4 - yoe / 100) ∧
      doe - (365 * yoe + yoe / 4 - yoe / 100) ≤ 365 := by
  obtain ⟨hcentury, hleap⟩ := leapDays_bounds h0 h1 he hf hg hy
  omega

/-- Only a leap year has a day more. -/
theorem leap_of_doy (h0 : 0 ≤ doe) (h1 : doe < 146097) (he : e = doe / 1460)
    (hf : f = doe / 36524) (hg : g = doe / 146096) (hy : yoe = (doe - e + f - g) / 365)
    (hdoy : doe - (365 * yoe + yoe / 4 - yoe / 100) = 365) : Gregorian.Leap (yoe + 1) := by
  obtain ⟨hcentury, -, hleap⟩ := leapDays_bounds h0 h1 he hf hg hy
  obtain ⟨hy0, hy400⟩ : 0 ≤ yoe ∧ yoe < 400 := by
    rw [he, hf, hg] at hy
    exact yoe_bounds h0 h1 hy
  have he1 : e = yoe / 4 + 1 := by omega
  have hfourth : yoe % 4 = 3 := by omega
  refine ⟨by omega, ?_⟩
  by_contra hnot
  rw [not_or, not_not] at hnot
  obtain ⟨hhundred, hera⟩ := hnot
  -- the last day of a century that is no leap year would belong to the next one
  have hnext : doe = 36524 * (yoe / 100 + 1) := by omega
  omega

end Year

/-- The day is a day of the year that begins with March of the year `yoe` of the era. -/
structure InYear (days era yoe doy : ℤ) : Prop where
  yoe_nonneg : 0 ≤ yoe
  yoe_lt : yoe < 400
  doy_nonneg : 0 ≤ doy
  doy_le : doy ≤ 365
  leap : doy = 365 → Gregorian.Leap (yoe + 1)
  days_eq : days + 719468 = era * 146097 + (365 * yoe + yoe / 4 - yoe / 100 + doy)

/-- The date on a day of the year that begins with March. -/
theorem civil_eq (days : ℤ) :
    ∃ era yoe doy, InYear days era yoe doy ∧ civil days =
      (if (if (5 * doy + 2) / 153 < 10 then (5 * doy + 2) / 153 + 3 else (5 * doy + 2) / 153 - 9) ≤ 2
        then yoe + era * 400 + 1 else yoe + era * 400,
      if (5 * doy + 2) / 153 < 10 then (5 * doy + 2) / 153 + 3 else (5 * doy + 2) / 153 - 9,
      doy - (153 * ((5 * doy + 2) / 153) + 2) / 5 + 1) := by
  obtain ⟨era, doe, hz, h0, h1⟩ : ∃ era doe, days + 719468 = era * 146097 + doe ∧ 0 ≤ doe ∧
      doe < 146097 := ⟨(days + 719468) / 146097, (days + 719468) % 146097, by omega, by omega,
        by omega⟩
  have hera : (days + 719468) / 146097 = era := by omega
  have hdoe : (days + 719468) % 146097 = doe := by omega
  have hfloor : ∀ n, doe.tdiv n = doe / n := fun n => Int.tdiv_eq_ediv_of_nonneg h0
  obtain ⟨yoe, hy⟩ : ∃ yoe, yoe = (doe - doe / 1460 + doe / 36524 - doe / 146096) / 365 := ⟨_, rfl⟩
  obtain ⟨hy0, hy400⟩ := yoe_bounds h0 h1 hy
  obtain ⟨hdoy0, hdoy⟩ := doy_bounds h0 h1 rfl rfl rfl hy
  have hleap := leap_of_doy h0 h1 rfl rfl rfl hy
  have hyoe : (doe - doe / 1460 + doe / 36524 - doe / 146096).tdiv 365 = yoe := by
    rw [Int.tdiv_eq_ediv_of_nonneg (by omega), hy]
  obtain ⟨doy, hd⟩ : ∃ doy, doy = doe - (365 * yoe + yoe / 4 - yoe / 100) := ⟨_, rfl⟩
  rw [← hd] at hdoy0 hdoy hleap
  refine ⟨era, yoe, doy, ⟨hy0, hy400, hdoy0, hdoy, hleap, by omega⟩, ?_⟩
  simp only [civil, hera, hdoe, hfloor, hyoe, Int.tdiv_eq_ediv_of_nonneg hy0, ← hd]
  rw [Int.tdiv_eq_ediv_of_nonneg (by omega), Int.tdiv_eq_ediv_of_nonneg (by omega)]

/-- The month and the day of the month are numbers of two digits, and the date gives the day. -/
theorem civil_spec (days : ℤ) :
    (0 ≤ (civil days).2.1 ∧ (civil days).2.1 < 100) ∧
      (0 ≤ (civil days).2.2 ∧ (civil days).2.2 < 100) ∧ daysFromCivil (civil days) = days := by
  obtain ⟨era, yoe, doy, hyear, hcivil⟩ := civil_eq days
  obtain ⟨hy0, hy400, hdoy0, hdoy, -, hdays⟩ := hyear
  rw [hcivil]
  refine ⟨?_, ?_, ?_⟩
  · dsimp only
    omega
  · dsimp only
    omega
  · unfold daysFromCivil
    dsimp only
    clear hcivil
    have hmp : 0 ≤ (5 * doy + 2) / 153 ∧ (5 * doy + 2) / 153 ≤ 11 := by omega
    generalize (5 * doy + 2) / 153 = mp at hmp ⊢
    have hera : (yoe + era * 400) / 400 = era ∧ (yoe + era * 400) % 400 = yoe := by omega
    by_cases hm : mp < 10
    · have h3 : ¬ mp + 3 ≤ 2 := by omega
      have h3' : 2 < mp + 3 := by omega
      simp only [if_pos hm, if_neg h3, if_pos h3', hera]
      rw [show mp + 3 - 3 = mp by omega]
      omega
    · have h9 : mp - 9 ≤ 2 := by omega
      have h9' : ¬ 2 < mp - 9 := by omega
      simp only [if_neg hm, if_pos h9, if_neg h9', add_sub_cancel_right, hera]
      rw [show mp - 9 + 9 = mp by omega]
      omega

/-! ### The string of a date -/

theorem zeroPad_of_nonneg (width : ℕ) {n : ℤ} (h : 0 ≤ n) :
    zeroPad width n = List.replicate (width - (Nat.toDigits 10 n.natAbs).length) '0' ++
      Nat.toDigits 10 n.natAbs := by
  simp only [zeroPad, if_neg (not_lt.mpr h), List.nil_append, List.length_nil, Nat.sub_zero]

theorem minus_not_mem_zeroPad (width : ℕ) {n : ℤ} (h : 0 ≤ n) : '-' ∉ zeroPad width n := by
  rw [zeroPad_of_nonneg width h, List.mem_append, not_or]
  refine ⟨by simp, fun hmem => ?_⟩
  exact absurd (Nat.isDigit_of_mem_toDigits (by decide) (by decide) hmem) (by decide)

theorem natAbs_of_digits {k k' n m : ℕ}
    (h : List.replicate k '0' ++ Nat.toDigits 10 n = List.replicate k' '0' ++ Nat.toDigits 10 m) :
    n = m := by
  have h' := congrArg (fun l => Nat.ofDigitChars 10 l 0) h
  simpa only [Nat.ofDigitChars_append, Nat.ofDigitChars_replicate_zero, Nat.mul_zero,
    Nat.ofDigitChars_ten_toDigits] using h'

theorem zeroPad_inj {width : ℕ} {n m : ℤ} (h : zeroPad width n = zeroPad width m) : n = m := by
  have hneg : ∀ k : ℤ, k < 0 → '-' ∈ zeroPad width k := fun k hk => by
    simp [zeroPad, if_pos hk]
  rcases lt_or_ge n 0 with hn | hn <;> rcases lt_or_ge m 0 with hm | hm
  · simp only [zeroPad, if_pos hn, if_pos hm, List.append_assoc, List.append_cancel_left_eq] at h
    have habs := natAbs_of_digits h
    omega
  · exact absurd (h ▸ hneg n hn) (minus_not_mem_zeroPad width hm)
  · exact absurd (h ▸ hneg m hm) (minus_not_mem_zeroPad width hn)
  · rw [zeroPad_of_nonneg width hn, zeroPad_of_nonneg width hm] at h
    have habs := natAbs_of_digits h
    omega

theorem length_zeroPad_two {n : ℤ} (h0 : 0 ≤ n) (h1 : n < 100) : (zeroPad 2 n).length = 2 := by
  have hlen : (Nat.toDigits 10 n.natAbs).length ≤ 2 :=
    (Nat.length_toDigits_le_iff (by decide) (by decide)).mpr (by omega)
  rw [zeroPad_of_nonneg 2 h0, List.length_append, List.length_replicate]
  omega

/-- **Two times have the same day string exactly when they fall on the same day.** -/
theorem dayString_inj {s t : ℤ} : dayString s = dayString t ↔ s / 86400 = t / 86400 := by
  constructor
  · intro h
    obtain ⟨⟨hm0, hm1⟩, ⟨hd0, hd1⟩, hs⟩ := civil_spec (s / 86400)
    obtain ⟨⟨hm0', hm1'⟩, ⟨hd0', hd1'⟩, ht⟩ := civil_spec (t / 86400)
    rw [dayString_eq, dayString_eq] at h
    have hlist := String.ofList_injective h
    obtain ⟨hym, hd⟩ := List.append_inj' hlist
      ((length_zeroPad_two hd0 hd1).trans (length_zeroPad_two hd0' hd1').symm)
    obtain ⟨hy, hm⟩ := List.append_inj' hym
      ((length_zeroPad_two hm0 hm1).trans (length_zeroPad_two hm0' hm1').symm)
    have hdate : civil (s / 86400) = civil (t / 86400) :=
      Prod.ext (zeroPad_inj hy) (Prod.ext (zeroPad_inj hm) (zeroPad_inj hd))
    rw [← hs, ← ht, hdate]
  · intro h
    rw [dayString_eq, dayString_eq, h]

end FirewallLLM.Quota
