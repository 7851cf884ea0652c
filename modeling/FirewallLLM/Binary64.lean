import Mathlib.Data.Int.Log
import Mathlib.Data.Rat.Floor
import Mathlib.Tactic.Linarith
import Mathlib.Tactic.NormNum
import Mathlib.Tactic.Positivity

/-! # Rounding to floats of 64 bits

The nearest number with 53 binary digits, of two equally near ones that with the even last digit.
Neither overflow nor numbers below the normal ones are part of it.

Rounding does not pass a number that is itself on the grid (`le_nearest`, `nearest_le`): below
`2 ^ 53` not a whole number, and nowhere a power of two. -/

namespace Binary64

/-! ### Whole numbers -/

/-- The nearest whole number, and the even one of two. -/
def roundEven (x : ℚ) : ℤ :=
  if x - ⌊x⌋ < 1 / 2 ∨ (x - ⌊x⌋ = 1 / 2 ∧ ⌊x⌋ % 2 = 0) then ⌊x⌋ else ⌊x⌋ + 1

section Whole

variable {x : ℚ} {m : ℤ}

theorem le_roundEven (h : m ≤ x) : m ≤ roundEven x := by
  have hfloor : m ≤ ⌊x⌋ := Int.le_floor.mpr h
  unfold roundEven
  split_ifs
  · exact hfloor
  · exact hfloor.trans (Int.le_add_one le_rfl)

theorem roundEven_le_of_lt_half (h : x < m + 1 / 2) : roundEven x ≤ m := by
  have hfloor := Int.floor_le x
  have hle : ⌊x⌋ ≤ m := by
    have hlt : ((⌊x⌋ : ℤ) : ℚ) < (m + 1 : ℤ) := by
      push_cast
      linarith
    exact Int.lt_add_one_iff.mp (Int.cast_lt.mp hlt)
  unfold roundEven
  split_ifs with hnear
  · exact hle
  · have hne : ⌊x⌋ ≠ m := by
      intro heq
      refine hnear (.inl ?_)
      rw [heq]
      linarith
    omega

end Whole

/-! ### Floats -/

/-- The distance of the floats around a number. -/
def ulp (x : ℚ) : ℚ := 2 ^ (Int.log 2 |x| - 52)

/-- The nearest float. -/
def nearest (x : ℚ) : ℚ := roundEven (x / ulp x) * ulp x

section Nearest

variable {x : ℚ} {m : ℤ}

theorem ulp_pos (x : ℚ) : 0 < ulp x := zpow_pos two_pos _

theorem le_nearest (h : m * ulp x ≤ x) : m * ulp x ≤ nearest x := by
  have hdiv : (m : ℚ) ≤ x / ulp x := (le_div_iff₀ (ulp_pos x)).mpr h
  exact mul_le_mul_of_nonneg_right (Int.cast_le.mpr (le_roundEven hdiv)) (ulp_pos x).le

theorem nearest_le_of_lt_half (h : x < (m + 1 / 2) * ulp x) : nearest x ≤ m * ulp x := by
  have hdiv : x / ulp x < m + 1 / 2 := (div_lt_iff₀ (ulp_pos x)).mpr h
  exact mul_le_mul_of_nonneg_right (Int.cast_le.mpr (roundEven_le_of_lt_half hdiv)) (ulp_pos x).le

theorem nearest_le (h : x ≤ m * ulp x) : nearest x ≤ m * ulp x := by
  have hpos := ulp_pos x
  exact nearest_le_of_lt_half (by linarith)

theorem nearest_nonneg (h : 0 ≤ x) : 0 ≤ nearest x := by
  have hzero : ((0 : ℤ) : ℚ) * ulp x = 0 := by simp
  rw [← hzero]
  exact le_nearest (by rwa [hzero])

theorem log_le {k : ℤ} (h0 : 0 ≤ x) (hk : 0 ≤ k) (h : x < 2 ^ (k + 1)) : Int.log 2 |x| ≤ k := by
  rw [abs_of_nonneg h0]
  rcases h0.eq_or_lt with rfl | hpos
  · rwa [Int.log_zero_right]
  · have hlog : (2 : ℚ) ^ Int.log 2 x ≤ x := Int.zpow_log_le_self one_lt_two hpos
    have hlt := (zpow_lt_zpow_iff_right₀ (one_lt_two (α := ℚ))).mp (hlog.trans_lt h)
    omega

/-- Whatever lies on the grid of a greater exponent lies on the grid of the number. -/
theorem exists_mul_ulp {k : ℤ} (h : Int.log 2 |x| - 52 ≤ k) (n : ℤ) :
    ∃ m : ℤ, (n : ℚ) * 2 ^ k = m * ulp x := by
  obtain ⟨j, hj⟩ := Int.eq_ofNat_of_zero_le (sub_nonneg.mpr h)
  refine ⟨n * 2 ^ j, ?_⟩
  have hk : k = (j : ℤ) + (Int.log 2 |x| - 52) := by omega
  rw [ulp, hk, zpow_add₀ two_ne_zero, zpow_natCast]
  push_cast
  ring

/-- Below `2 ^ 53` whole numbers are floats, and rounding does not pass them. -/
theorem intCast_le_nearest {n : ℤ} (h0 : 0 ≤ x) (hx : x < 2 ^ 53) (h : n ≤ x) : n ≤ nearest x := by
  have hlog : Int.log 2 |x| ≤ 52 := log_le h0 (by norm_num) (by exact_mod_cast hx)
  obtain ⟨m, hm⟩ := exists_mul_ulp (x := x) (k := 0) (by omega) n
  rw [zpow_zero, mul_one] at hm
  rw [hm] at h ⊢
  exact le_nearest h

theorem nearest_le_intCast {n : ℤ} (h0 : 0 ≤ x) (hx : x < 2 ^ 53) (h : x ≤ n) : nearest x ≤ n := by
  have hlog : Int.log 2 |x| ≤ 52 := log_le h0 (by norm_num) (by exact_mod_cast hx)
  obtain ⟨m, hm⟩ := exists_mul_ulp (x := x) (k := 0) (by omega) n
  rw [zpow_zero, mul_one] at hm
  rw [hm] at h ⊢
  exact nearest_le h

theorem nearest_natCast {n : ℕ} (h : n < 2 ^ 53) : nearest n = n := by
  have h0 : (0 : ℚ) ≤ n := n.cast_nonneg
  have hlt : (n : ℚ) < 2 ^ 53 := by exact_mod_cast h
  have hcast : (n : ℚ) = ((n : ℤ) : ℚ) := (Int.cast_natCast n).symm
  refine le_antisymm ?_ ?_
  · nth_rewrite 2 [hcast]
    exact nearest_le_intCast h0 hlt hcast.le
  · nth_rewrite 1 [hcast]
    exact intCast_le_nearest h0 hlt hcast.ge

theorem nearest_le_two_pow {k : ℕ} (h0 : 0 ≤ x) (h : x ≤ 2 ^ k) : nearest x ≤ 2 ^ k := by
  have hlt : x < 2 ^ ((k : ℤ) + 1) := by
    rw [zpow_add₀ two_ne_zero, zpow_natCast, zpow_one]
    have hpos : (0 : ℚ) < 2 ^ k := by positivity
    linarith
  have hlog : Int.log 2 |x| ≤ k := log_le h0 (Int.natCast_nonneg k) hlt
  obtain ⟨m, hm⟩ := exists_mul_ulp (x := x) (k := k) (by omega) 1
  rw [Int.cast_one, one_mul, zpow_natCast] at hm
  rw [hm] at h ⊢
  exact nearest_le h

theorem nearest_le_two_pow_of_le {k : ℕ} (hk : 53 < k) (h0 : 0 ≤ x) (h : x ≤ 2 ^ k + 1) :
    nearest x ≤ 2 ^ k := by
  rcases le_or_gt x (2 ^ k) with hle | hgt
  · exact nearest_le_two_pow h0 hle
  · have hpow : (2 : ℚ) ^ 54 ≤ 2 ^ k := pow_le_pow_right₀ one_le_two hk
    have hlt : x < 2 ^ ((k : ℤ) + 1) := by
      rw [zpow_add₀ two_ne_zero, zpow_natCast, zpow_one]
      linarith
    have hle : Int.log 2 |x| ≤ k := log_le h0 (Int.natCast_nonneg k) hlt
    have hge : (k : ℤ) ≤ Int.log 2 |x| := by
      rw [abs_of_nonneg h0, ← Int.zpow_le_iff_le_log one_lt_two (by linarith)]
      exact_mod_cast hgt.le
    have hlog : Int.log 2 |x| - 52 = (k - 52 : ℕ) := by omega
    have hulp : ulp x = 2 ^ (k - 52) := by rw [ulp, hlog, zpow_natCast]
    have hgrid : ((2 ^ 52 : ℤ) : ℚ) * ulp x = 2 ^ k := by
      have hsplit : (2 : ℚ) ^ k = 2 ^ 52 * 2 ^ (k - 52) := by
        rw [← pow_add, Nat.add_sub_cancel' (by omega)]
      rw [hulp, hsplit, Int.cast_pow, Int.cast_ofNat]
    have hhalf : 1 < 1 / 2 * ulp x := by
      have hfour : (2 : ℚ) ^ 2 ≤ ulp x := by
        rw [hulp]
        exact pow_le_pow_right₀ one_le_two (by omega)
      linarith
    rw [← hgrid] at h ⊢
    refine nearest_le_of_lt_half (h.trans_lt ?_)
    rw [add_mul]
    exact (add_lt_add_iff_left _).mpr hhalf

end Nearest

end Binary64
