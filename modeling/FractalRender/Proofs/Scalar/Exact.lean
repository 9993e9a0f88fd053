import Mathlib
import FractalRender.Scalar.Basic

/-!
# Exact arithmetic

An ordered field with a largest integer below each of its elements is a type of numbers in which
every operation is exact, nothing is infinite and everything is a number.  The rationals and the
reals are read this way.

* `floor_exact`, `larger_exact`, `ceilWord_exact`: what the functions on numbers come to.
* `le_ceilWord_exact`: rounding up, where the result fits a word.
* `powInt_exact`: repeated squaring gives the power.
-/

namespace FractalRender.Scalar

/-- One step of repeated squaring leaves the power what it is. -/
theorem pow_eq_mul_pow_half {M : Type} [Monoid M] (a : M) (n : Nat) :
    a ^ n = a ^ (n % 2) * (a * a) ^ (n / 2) := by
  rw [← pow_two, ← pow_mul, ← pow_add, Nat.mod_add_div]

variable {K : Type} [Field K] [LinearOrder K] [FloorRing K]

/-- The numbers of an ordered field, with its own operations. -/
@[reducible] def exact (K : Type) [Field K] [LinearOrder K] [FloorRing K] : Scalar K where
  decLt _ _ := inferInstance
  decLe _ _ := inferInstance
  ofNat n := n
  abs a := |a|
  isNaN _ := false
  isFinite _ := true
  floor? a := some ⌊a⌋

instance : Scalar ℚ := exact ℚ

noncomputable instance : Scalar ℝ := exact ℝ

local instance : Scalar K := exact K

theorem floor_exact (a : K) : Scalar.floor a = ⌊a⌋ := rfl

theorem larger_exact (a b : K) : larger a b = max a b := by
  rw [larger, max_def_lt]
  simp

/-- Up to the largest word the least integer above is itself. -/
theorem ceilWord_exact [IsStrictOrderedRing K] (a : K) :
    ceilWord a = min ⌈a⌉.toNat (UInt32.size - 1) := by
  rw [ceilWord, floor_exact, Int.floor_neg, neg_neg]

/-- A number that fits a word is at most its rounded value. -/
theorem le_ceilWord_exact [IsStrictOrderedRing K] {a : K} (h : a ≤ 2 ^ 32 - 1) :
    a ≤ ceilWord a := by
  have fits : ⌈a⌉.toNat ≤ UInt32.size - 1 := by
    have : ⌈a⌉ ≤ 2 ^ 32 - 1 := Int.ceil_le.mpr (by exact_mod_cast h)
    simp only [UInt32.size]
    omega
  rw [ceilWord_exact, min_eq_left fits]
  calc a ≤ ⌈a⌉ := Int.le_ceil a
    _ ≤ (⌈a⌉.toNat : ℤ) := by exact_mod_cast Int.self_le_toNat ⌈a⌉
    _ = ⌈a⌉.toNat := Int.cast_natCast _

theorem squareAndMultiply_exact (r a : K) (n : Nat) : squareAndMultiply r a n = r * a ^ n := by
  induction n using Nat.strongRecOn generalizing r a with
  | ind n ih =>
    have factor : (if n % 2 = 1 then r * a else r) = r * a ^ (n % 2) := by
      rcases Nat.mod_two_eq_zero_or_one n with h | h <;> simp [h]
    rw [squareAndMultiply, pow_eq_mul_pow_half a n, ← mul_assoc, ← factor]
    split
    · next half => rw [half, pow_zero, mul_one]
    · exact ih (n / 2) (by omega) _ _

/-- **Repeated squaring gives the power.** -/
theorem powInt_exact (a : K) (n : Int) : powInt a n = a ^ n := by
  have one : (1.0 : K) = 1 := by norm_num
  have power : squareAndMultiply (1.0 : K) a n.natAbs = a ^ n.natAbs := by
    rw [squareAndMultiply_exact, one, one_mul]
  rw [powInt, power]
  split
  · next negative =>
      rw [one, one_div, ← zpow_natCast, Int.ofNat_natAbs_of_nonpos negative.le, zpow_neg, inv_inv]
  · next positive => rw [← zpow_natCast, Int.natAbs_of_nonneg (not_lt.mp positive)]

end FractalRender.Scalar
