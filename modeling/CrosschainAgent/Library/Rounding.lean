import Mathlib.Data.Nat.Log
import Mathlib.Tactic.Linarith

/-!
# Rounding to significant bits

A floating-point format with enough exponents, as fixed-point arithmetic: the values are natural numbers of
one small unit, and the result of an operation is rounded to the nearest number of `bits` significant bits, of
two such numbers to the one whose last bit is even. A rounded number is off by at most one part in
`2 ^ bits`.
-/

namespace Rounding

/-- The multiple of `unit` next to a number, of two the even one. -/
def nearest (unit n : ℕ) : ℕ :=
  if 2 * (n % unit) < unit ∨ 2 * (n % unit) = unit ∧ n / unit % 2 = 0 then n / unit * unit
  else (n / unit + 1) * unit

/-- The nearest number of so many significant bits. -/
def toBits (bits n : ℕ) : ℕ := nearest (2 ^ (n.log2 + 1 - bits)) n

/-- The nearest multiple is at most half a unit above the number. -/
theorem nearest_le (unit n : ℕ) : 2 * nearest unit n ≤ 2 * n + unit := by
  have hdiv := Nat.div_add_mod' n unit
  unfold nearest
  split
  next => omega
  next hup =>
    rw [add_mul, one_mul]
    omega

/-- The nearest multiple is at most half a unit below the number. -/
theorem le_nearest {unit : ℕ} (hunit : 0 < unit) (n : ℕ) : 2 * n ≤ 2 * nearest unit n + unit := by
  have hdiv := Nat.div_add_mod' n unit
  have hmod := Nat.mod_lt n hunit
  unfold nearest
  split
  next => omega
  next =>
    rw [add_mul, one_mul]
    omega

/-- A number of so many bits is not rounded. -/
theorem toBits_of_lt {bits n : ℕ} (hbits : 0 < bits) (h : n < 2 ^ bits) : toBits bits n = n := by
  have hunit : n.log2 + 1 - bits = 0 := by
    by_cases hn : n = 0
    · rw [hn, Nat.log2_zero]
      omega
    · have hlog := (Nat.log2_lt hn).mpr h
      omega
  rw [toBits, hunit, pow_zero, nearest, Nat.mod_one, Nat.div_one, if_pos (Or.inl (by omega)), mul_one]

/-- Where a number is rounded, the unit is one part of it in half as many. -/
theorem unit_le {bits n : ℕ} (h : 2 ^ bits ≤ n) : 2 ^ bits * 2 ^ (n.log2 + 1 - bits) ≤ 2 * n := by
  have hn : n ≠ 0 := by
    have := Nat.two_pow_pos bits
    omega
  have hlog : bits ≤ n.log2 := (Nat.le_log2 hn).mpr h
  calc 2 ^ bits * 2 ^ (n.log2 + 1 - bits) = 2 * 2 ^ n.log2 := by
        rw [← pow_add, ← pow_succ']
        congr 1
        omega
    _ ≤ 2 * n := Nat.mul_le_mul_left 2 (Nat.log2_self_le hn)

/-- Rounding adds at most one part in `2 ^ bits`. -/
theorem toBits_le {bits : ℕ} (hbits : 0 < bits) (n : ℕ) : 2 ^ bits * toBits bits n ≤ (2 ^ bits + 1) * n := by
  by_cases h : n < 2 ^ bits
  · rw [toBits_of_lt hbits h]
    exact Nat.mul_le_mul_right n (Nat.le_succ _)
  · have hunit := unit_le (not_lt.mp h)
    have hnear := Nat.mul_le_mul_left (2 ^ bits) (nearest_le (2 ^ (n.log2 + 1 - bits)) n)
    rw [toBits]
    linarith

/-- Rounding takes away at most one part in `2 ^ bits`. -/
theorem le_toBits {bits : ℕ} (hbits : 0 < bits) (n : ℕ) : 2 ^ bits * n ≤ 2 ^ bits * toBits bits n + n := by
  by_cases h : n < 2 ^ bits
  · rw [toBits_of_lt hbits h]
    exact Nat.le_add_right _ _
  · have hunit := unit_le (not_lt.mp h)
    have hnear := Nat.mul_le_mul_left (2 ^ bits) (le_nearest (Nat.two_pow_pos (n.log2 + 1 - bits)) n)
    rw [toBits]
    linarith

end Rounding
