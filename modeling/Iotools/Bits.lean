import Mathlib.Data.Nat.Bitwise

namespace Bits

theorem and_ne_zero (x y : Nat) : x &&& y ≠ 0 ↔ ∃ i, x.testBit i = true ∧ y.testBit i = true := by
  constructor
  · intro nonzero
    obtain ⟨i,set⟩ := Nat.exists_testBit_of_ne_zero nonzero
    rw [Nat.testBit_and] at set
    exact ⟨i,Bool.and_eq_true_iff.mp set⟩
  · rintro ⟨i,left,right⟩ zero
    have clear : (x &&& y).testBit i = false := by rw [zero,Nat.zero_testBit]
    rw [Nat.testBit_and,left,right] at clear
    cases clear

theorem and_two_pow_ne_zero (x k : Nat) : x &&& 2 ^ k ≠ 0 ↔ x.testBit k = true := by
  rw [and_ne_zero]
  simp [Nat.testBit_two_pow]

-- The top bit of a word tells which half of the range it lies in.
theorem lt_two_pow_iff (small : x < 2 ^ (k + 1)) : x < 2 ^ k ↔ x.testBit k = false := by
  constructor
  · exact Nat.testBit_lt_two_pow
  · intro clear
    by_contra high
    have set := Nat.testBit_of_two_pow_le_and_two_pow_add_one_gt (Nat.not_lt.mp high) small
    rw [clear] at set
    cases set

end Bits
