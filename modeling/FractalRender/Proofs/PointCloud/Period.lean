import FractalRender.Proofs.PointCloud.Linear

/-!
# The random generator — its period

The unknown has order `2 ^ 32 - 1` among the polynomials modulo the characteristic one.  So as many
steps lead every state back to itself, and a smaller number of steps does so for no state but 0: the
least such number divides `2 ^ 32 - 1`, and were it a proper divisor, the state would come back after
`(2 ^ 32 - 1) / q` steps for a prime `q`.  But the polynomial of these steps less 1 has an inverse,
its power `2 ^ 32 - 2`.

* `power_two`, `power_sub_one`: the two computations with polynomials.
* `minimalPeriod_scramble`, `iterate_scramble_ne`: the least number of steps that leads a state back.
* `bijective_scramble`, `scramble_eq_self`: so every state has one before it, and 0 alone stays.
-/

namespace FractalRender.Xorshift

/-- The prime factors of `2 ^ 32 - 1`. -/
def factors : List Nat := [3, 5, 17, 257, 65537]

theorem prod_factors : factors.prod = 2 ^ 32 - 1 := rfl

theorem prime_of_mem_factors : ∀ q ∈ factors, q.Prime := by
  simp only [factors, List.forall_mem_cons, List.not_mem_nil, false_implies, implies_true, and_true]
  norm_num

theorem mem_factors {q : Nat} (hq : q.Prime) (h : q ∣ 2 ^ 32 - 1) : q ∈ factors := by
  rw [← prod_factors, hq.prime.dvd_prod_iff] at h
  obtain ⟨r, hr, hqr⟩ := h
  rwa [(Nat.prime_dvd_prime_iff_eq hq (prime_of_mem_factors r hr)).mp hqr]

/-! ### Computations with polynomials -/

theorem power_two : power 2 32 (2 ^ 32 - 1) = 1 := by decide +kernel

/-- What `(2 ^ 32 - 1) / q` steps do less what none do can be undone. -/
theorem power_sub_one :
    ∀ q ∈ factors, power (power 2 32 ((2 ^ 32 - 1) / q) ^^^ 1) 32 (2 ^ 32 - 1) = 1 := by
  decide +kernel

/-! ### Steps of the generator -/

theorem iterate_scramble {n : Nat} (hn : n < 2 ^ 32) (s : UInt32) :
    scramble^[n] s = apply (power 2 32 n) s := by
  rw [apply_power 2 hn, funext apply_two]

/-- Every state comes back after `2 ^ 32 - 1` steps. -/
theorem isPeriodicPt_scramble (s : UInt32) : Function.IsPeriodicPt scramble (2 ^ 32 - 1) s := by
  show scramble^[2 ^ 32 - 1] s = s
  rw [iterate_scramble (by decide), power_two, apply_one]

/-- No state but 0 comes back after the number of steps divided by a prime. -/
theorem eq_zero_of_iterate {q : Nat} (hq : q ∈ factors) {s : UInt32}
    (h : scramble^[(2 ^ 32 - 1) / q] s = s) : s = 0 := by
  have fits : (2 ^ 32 - 1) / q < 2 ^ 32 := (Nat.div_le_self _ q).trans_lt (by decide)
  have undone := apply_power (power 2 32 ((2 ^ 32 - 1) / q) ^^^ 1) (k := 32) (n := 2 ^ 32 - 1)
    (by decide) s
  rw [power_sub_one q hq, apply_one] at undone
  have nothing : apply (power 2 32 ((2 ^ 32 - 1) / q) ^^^ 1) s = 0 := by
    rw [apply_xor, ← iterate_scramble fits, h, apply_one, UInt32.xor_self]
  rw [undone]
  exact (isLinear_apply _).iterate_eq_zero nothing (by decide)

/-- **The generator has full period**: a state other than 0 comes back after `2 ^ 32 - 1` steps, and
not before. -/
theorem minimalPeriod_scramble {s : UInt32} (hs : s ≠ 0) :
    Function.minimalPeriod scramble s = 2 ^ 32 - 1 := by
  obtain ⟨c, hc⟩ := (isPeriodicPt_scramble s).minimalPeriod_dvd
  by_cases one : c = 1
  · rw [hc, one, mul_one]
  · obtain ⟨q, hq, d, rfl⟩ := Nat.exists_prime_and_dvd one
    have hc : 2 ^ 32 - 1 = q * (Function.minimalPeriod scramble s * d) := by
      rw [hc, mul_left_comm]
    have quotient : (2 ^ 32 - 1) / q = Function.minimalPeriod scramble s * d := by
      rw [hc, Nat.mul_div_cancel_left _ hq.pos]
    have back : scramble^[(2 ^ 32 - 1) / q] s = s :=
      Function.isPeriodicPt_iff_minimalPeriod_dvd.mpr ⟨d, quotient⟩
    exact absurd (eq_zero_of_iterate (mem_factors hq ⟨_, hc⟩) back) hs

/-- A smaller number of steps leads nowhere back. -/
theorem iterate_scramble_ne {s : UInt32} (hs : s ≠ 0) {n : Nat} (pos : 0 < n)
    (lt : n < 2 ^ 32 - 1) : scramble^[n] s ≠ s := by
  rw [← minimalPeriod_scramble hs] at lt
  exact Function.not_isPeriodicPt_of_pos_of_lt_minimalPeriod pos.ne' lt

/-- Every state is the next one of exactly one state. -/
theorem bijective_scramble : Function.Bijective scramble := by
  have back : scramble^[2 ^ 32 - 1] = id := funext isPeriodicPt_scramble
  refine Function.bijective_iff_has_inverse.mpr ⟨scramble^[2 ^ 32 - 2], fun s => ?_, fun s => ?_⟩
  · rw [← Function.iterate_succ_apply scramble]
    exact congrFun back s
  · rw [← Function.iterate_succ_apply' scramble]
    exact congrFun back s

/-- Only 0 stays as it is. -/
theorem scramble_eq_self {s : UInt32} : scramble s = s ↔ s = 0 := by
  constructor
  · intro h
    by_contra hs
    exact iterate_scramble_ne hs Nat.one_pos (by decide) h
  · rintro rfl
    rfl

end FractalRender.Xorshift
