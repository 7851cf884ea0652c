import Mathlib.Algebra.Order.Ring.Int
import Mathlib.Tactic.SplitIfs

/-! # Signed 64-bit arithmetic

`Int64` addition and subtraction are the operations of the integers followed by `wrap`, which
takes the representative modulo `2 ^ 64` in `[-2 ^ 63, 2 ^ 63)`.  Wrapping commutes with sums,
so a chain of them is exact precisely when its final exact value fits (`wrap_eq_iff`),
whatever its intermediate values did. -/

namespace Wrapping

/-- The two's complement representative of `x`. -/
def wrap (x : ℤ) : ℤ := x.bmod (2 ^ 64)

/-- `x` is the value of some `Int64`. -/
def Fits (x : ℤ) : Prop := -2 ^ 63 ≤ x ∧ x < 2 ^ 63

theorem wrap_eq_iff {x : ℤ} : wrap x = x ↔ Fits x := by
  unfold wrap Fits
  rw [Int.bmod_def]
  split_ifs <;> omega

theorem wrap_of_overflow {x : ℤ} (h₁ : 2 ^ 63 ≤ x) (h₂ : x < 2 ^ 64) : wrap x = x - 2 ^ 64 := by
  unfold wrap
  rw [Int.bmod_def]
  split_ifs <;> omega

@[simp] theorem wrap_wrap_add (x y : ℤ) : wrap (wrap x + y) = wrap (x + y) := Int.bmod_add_bmod
@[simp] theorem wrap_add_wrap (x y : ℤ) : wrap (x + wrap y) = wrap (x + y) := Int.add_bmod_bmod
@[simp] theorem wrap_wrap_sub (x y : ℤ) : wrap (wrap x - y) = wrap (x - y) := Int.bmod_sub_bmod
@[simp] theorem wrap_sub_wrap (x y : ℤ) : wrap (x - wrap y) = wrap (x - y) := Int.sub_bmod_bmod

theorem toInt_add (a b : Int64) : (a + b).toInt = wrap (a.toInt + b.toInt) := Int64.toInt_add a b
theorem toInt_sub (a b : Int64) : (a - b).toInt = wrap (a.toInt - b.toInt) := Int64.toInt_sub a b

theorem toInt_toInt64 (u : UInt64) : u.toInt64.toInt = wrap u.toNat := by
  unfold wrap
  rw [← UInt64.ofNat_toNat (x := u), UInt64.toInt64_ofNat', Int64.toInt_ofNat', UInt64.ofNat_toNat]
  rfl

theorem toInt_max (a b : Int64) : (max a b).toInt = max a.toInt b.toInt := by
  rcases le_total a.toInt b.toInt with h | h
  · rw [max_eq_right h]
    have : max a b = b := if_pos (Int64.le_iff_toInt_le.mpr h)
    rw [this]
  · rw [max_eq_left h]
    by_cases he : a ≤ b
    · have : max a b = b := if_pos he
      rw [this]
      exact le_antisymm h (Int64.le_iff_toInt_le.mp he)
    · have : max a b = a := if_neg he
      rw [this]

/-- A sum is exact as soon as the exact sum fits. -/
theorem toInt_add_of_fits {a b : Int64} (h : Fits (a.toInt + b.toInt)) :
    (a + b).toInt = a.toInt + b.toInt := by
  rw [toInt_add, wrap_eq_iff.mpr h]

section nonneg
variable {a b : Int64} (ha : 0 ≤ a.toInt) (hb : 0 ≤ b.toInt)
include ha hb

/-- Two non-negative numbers have an exact sum below `2 ^ 63` and a negative one from there. -/
theorem toInt_add_of_lt (h : a.toInt + b.toInt < 2 ^ 63) : (a + b).toInt = a.toInt + b.toInt :=
  toInt_add_of_fits ⟨by omega, h⟩

theorem toInt_sub_of_nonneg : (a - b).toInt = a.toInt - b.toInt := by
  have h1 := a.toInt_lt
  have h2 := b.toInt_lt
  have hfits : Fits (a.toInt - b.toInt) := by constructor <;> omega
  rw [toInt_sub, wrap_eq_iff.mpr hfits]

theorem toInt_add_neg (h : 2 ^ 63 ≤ a.toInt + b.toInt) : (a + b).toInt < 0 := by
  have h1 := a.toInt_lt
  have h2 := b.toInt_lt
  rw [toInt_add, wrap_of_overflow h (by omega)]
  omega

theorem toInt_add_eq_iff : (a + b).toInt = a.toInt + b.toInt ↔ a.toInt + b.toInt < 2 ^ 63 := by
  refine ⟨fun h => ?_, toInt_add_of_lt ha hb⟩
  rw [← h]
  exact (a + b).toInt_lt

end nonneg

end Wrapping
