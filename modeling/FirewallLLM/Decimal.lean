import Mathlib.Data.Int.Notation
import Mathlib.Data.Nat.Notation
import Mathlib.Tactic.IntervalCases

/-! # Integers in decimal

The text of an integer and back, and what the first of its digits is. -/

namespace Decimal

/-- An integer in decimal. -/
def intText : ℤ → List Char
  | .ofNat n => Nat.toDigits 10 n
  | .negSucc n => '-' :: Nat.toDigits 10 (n + 1)

/-- The integer of a text. -/
def readInt : List Char → ℤ
  | '-' :: digits => -(Nat.ofDigitChars 10 digits 0 : ℕ)
  | digits => (Nat.ofDigitChars 10 digits 0 : ℕ)

theorem toDigits_digit {n : ℕ} {c : Char} (h : c ∈ Nat.toDigits 10 n) : c.isDigit = true :=
  Nat.isDigit_of_mem_toDigits (by decide) (by decide) h

theorem digitChar_ne_zero {n : ℕ} (h : n < 10) (hn : 0 < n) : n.digitChar ≠ '0' := by
  interval_cases n <;> decide

/-- The digits of a positive number start with another digit than zero. -/
theorem toDigits_head {n : ℕ} (hn : 0 < n) : ∃ c s, Nat.toDigits 10 n = c :: s ∧ c ≠ '0' := by
  induction n using Nat.strongRecOn with
  | ind n ih =>
      by_cases hlt : n < 10
      · exact ⟨n.digitChar, [], Nat.toDigits_of_lt_base hlt, digitChar_ne_zero hlt hn⟩
      · have hle : 10 ≤ n := by omega
        obtain ⟨c, s, hdigits, hc⟩ := ih (n / 10) (by omega) (by omega)
        refine ⟨c, s ++ [(n % 10).digitChar], ?_, hc⟩
        rw [Nat.toDigits_of_base_le (by decide) hle, hdigits, List.cons_append]

/-- **An integer is read back from its text.** -/
theorem readInt_intText (n : ℤ) : readInt (intText n) = n := by
  cases n with
  | ofNat n =>
      have hread : readInt (Nat.toDigits 10 n) =
          (Nat.ofDigitChars 10 (Nat.toDigits 10 n) 0 : ℕ) := by
        unfold readInt
        split
        · rename_i digits heq
          have hmem : '-' ∈ Nat.toDigits 10 n := by
            rw [heq]
            exact List.mem_cons_self
          exact absurd (toDigits_digit hmem) (by decide)
        · rfl
      rw [intText, hread, Nat.ofDigitChars_ten_toDigits]
      rfl
  | negSucc n =>
      rw [intText, readInt, Nat.ofDigitChars_ten_toDigits]
      rfl

end Decimal
