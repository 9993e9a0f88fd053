import FractalRender.PointCloud.Xorshift
import Mathlib

/-!
# The random generator — linear maps of words

Shifts go along with exclusive or, and so does the step of the generator: words are vectors over the
field of two elements, with exclusive or as their sum, and `scramble` is a linear map of them.

A number stands for the polynomial over that field whose coefficients are its bits, the lowest bit
for the constant term.  `combine f n p` takes the `n` lowest coefficients of `p` at a map `f`: it
adds up the iterates of `f` that have the coefficient 1.  At `scramble` the polynomial
`characteristic` comes to nothing, so polynomials may be reduced by it, and those that are left have
32 coefficients.  `timesX`, `times` and `power` multiply them in this way, and `apply` takes them at
`scramble`.

* `IsLinear.eq_zero`: a linear map that takes every single bit to 0 takes every word there.
* `combine_characteristic`: the characteristic polynomial comes to nothing.
* `apply_times`, `apply_power`: products of polynomials are compositions of maps, and powers are
  iterates, so an iterate takes as many products as its number has bits.
-/

namespace FractalRender.Xorshift

/-! ### Linear maps -/

/-- The map goes along with exclusive or. -/
def IsLinear (f : UInt32 → UInt32) : Prop := ∀ s t, f (s ^^^ t) = f s ^^^ f t

theorem xor_xor_xor_comm (a b c d : UInt32) :
    (a ^^^ b) ^^^ (c ^^^ d) = (a ^^^ c) ^^^ (b ^^^ d) := by
  ac_rfl

/-- Without its leading bit a number has fewer bits. -/
theorem two_pow_xor_lt {n p : Nat} (lo : 2 ^ n ≤ p) (hi : p < 2 ^ (n + 1)) :
    2 ^ n ^^^ p < 2 ^ n := by
  have leading : p / 2 ^ n = 1 := Nat.div_eq_of_lt_le (by omega) (by rw [Nat.pow_succ] at hi; omega)
  have quotient : (2 ^ n ^^^ p) / 2 ^ n = 0 := by
    rw [Nat.xor_div_two_pow, leading, Nat.div_self (Nat.two_pow_pos n), Nat.xor_self]
  exact (Nat.div_eq_zero_iff_lt (Nat.two_pow_pos n)).mp quotient

namespace IsLinear

variable {f g : UInt32 → UInt32}

theorem map_zero (hf : IsLinear f) : f 0 = 0 := by
  have h := hf 0 0
  rwa [UInt32.xor_self, UInt32.xor_self] at h

theorem comp (hg : IsLinear g) (hf : IsLinear f) : IsLinear (g ∘ f) := fun s t =>
  (congrArg g (hf s t)).trans (hg _ _)

theorem self_xor (hf : IsLinear f) : IsLinear fun s => s ^^^ f s := by
  intro s t
  show (s ^^^ t) ^^^ f (s ^^^ t) = _
  rw [hf s t, xor_xor_xor_comm]

/-- What is taken to 0 stays there. -/
theorem iterate_eq_zero (hf : IsLinear f) {s : UInt32} (hs : f s = 0) {n : Nat} (hn : n ≠ 0) :
    f^[n] s = 0 := by
  obtain ⟨m, rfl⟩ := Nat.exists_eq_succ_of_ne_zero hn
  rw [Function.iterate_succ_apply, hs]
  exact Function.iterate_fixed hf.map_zero m

/-- **A linear map that takes every single bit to 0** takes every word there. -/
theorem eq_zero (hf : IsLinear f) (bits : ∀ i < 32, f (UInt32.ofNat (2 ^ i)) = 0) (s : UInt32) :
    f s = 0 := by
  -- by induction on the number of bits, of which the leading one is taken off
  have below (n : Nat) (hn : n ≤ 32) (p : Nat) (hp : p < 2 ^ n) : f (UInt32.ofNat p) = 0 := by
    induction n generalizing p with
    | zero =>
        obtain rfl : p = 0 := by omega
        exact hf.map_zero
    | succ n ih =>
        by_cases lo : 2 ^ n ≤ p
        · have rest := ih (by omega) _ (two_pow_xor_lt lo hp)
          rw [UInt32.ofNat_xor, hf, bits n (by omega), UInt32.zero_xor] at rest
          exact rest
        · exact ih (by omega) p (by omega)
  have word := below 32 le_rfl s.toNat s.toNat_lt
  rwa [UInt32.ofNat_toNat] at word

end IsLinear

/-- **The step of the generator is linear.** -/
theorem isLinear_scramble : IsLinear scramble := by
  have left (k : UInt32) : IsLinear (· <<< k) := fun _ _ => UInt32.shiftLeft_xor
  have right (k : UInt32) : IsLinear (· >>> k) := fun _ _ => UInt32.shiftRight_xor
  exact (left 5).self_xor.comp ((right 17).self_xor.comp (left 13).self_xor)

/-! ### Polynomials at a map -/

/-- The polynomial of the `n` lowest bits of `p`, taken at a map and applied to a value. -/
def combine {β : Type} [OfNat β 0] [XorOp β] (f : β → β) : Nat → Nat → β → β
  | 0, _, _ => 0
  | n + 1, p, s => (if p % 2 = 1 then s else 0) ^^^ f (combine f n (p / 2) s)

section

variable {f : UInt32 → UInt32}

theorem isLinear_combine (hf : IsLinear f) (n p : Nat) : IsLinear (combine f n p) := by
  intro s t
  induction n generalizing p with
  | zero => exact UInt32.xor_self.symm
  | succ n ih =>
      have first : (if p % 2 = 1 then s ^^^ t else 0) =
          (if p % 2 = 1 then s else 0) ^^^ (if p % 2 = 1 then t else 0) := by
        split
        · rfl
        · exact UInt32.xor_self.symm
      rw [combine, combine, combine, ih, hf, first, xor_xor_xor_comm]

/-- **The sum of two polynomials** is the sum of what they come to. -/
theorem combine_xor (hf : IsLinear f) (n p q : Nat) (s : UInt32) :
    combine f n (p ^^^ q) s = combine f n p s ^^^ combine f n q s := by
  induction n generalizing p q with
  | zero => exact UInt32.xor_self.symm
  | succ n ih =>
      have first : (if (p ^^^ q) % 2 = 1 then s else 0) =
          (if p % 2 = 1 then s else 0) ^^^ (if q % 2 = 1 then s else 0) := by
        by_cases hp : p % 2 = 1 <;> by_cases hq : q % 2 = 1 <;>
          simp only [Nat.xor_mod_two_eq_one, hp, hq, iff_true, iff_false, not_true, not_false_iff,
            if_true, if_false, UInt32.xor_self, UInt32.xor_zero, UInt32.zero_xor]
      rw [combine, combine, combine, Nat.xor_div_two, ih, hf, first, xor_xor_xor_comm]

theorem combine_zero (hf : IsLinear f) (n : Nat) (s : UInt32) : combine f n 0 s = 0 := by
  induction n with
  | zero => rfl
  | succ n ih =>
      rw [combine, Nat.zero_div, ih, hf.map_zero]
      exact UInt32.xor_self

/-- Twice a number is its polynomial times the unknown. -/
theorem combine_two_mul (n p : Nat) (s : UInt32) :
    combine f (n + 1) (2 * p) s = f (combine f n p s) := by
  rw [combine, Nat.mul_mod_right, Nat.mul_div_cancel_left p Nat.two_pos]
  exact UInt32.zero_xor

/-- A leading coefficient 0 need not be read. -/
theorem combine_succ (hf : IsLinear f) {n p : Nat} (hp : p.testBit n = false) (s : UInt32) :
    combine f (n + 1) p s = combine f n p s := by
  induction n generalizing p with
  | zero =>
      have even : p % 2 ≠ 1 := by simpa [Nat.testBit_zero] using hp
      show (if p % 2 = 1 then s else 0) ^^^ f 0 = 0
      rw [if_neg even, hf.map_zero, UInt32.xor_self]
  | succ n ih =>
      rw [Nat.testBit_succ] at hp
      rw [combine, ih hp]
      rfl

end

/-! ### Polynomials modulo the characteristic one -/

/-- The polynomial of degree 32 that comes to nothing at `scramble`. -/
def characteristic : Nat := 0x1003ec241

/-- **The characteristic polynomial comes to nothing.** -/
theorem combine_characteristic (s : UInt32) : combine scramble 33 characteristic s = 0 :=
  (isLinear_combine isLinear_scramble 33 characteristic).eq_zero (by decide +kernel) s

/-- A polynomial times the unknown, reduced to 32 coefficients. -/
def timesX (p : Nat) : Nat := if p.testBit 31 then 2 * p ^^^ characteristic else 2 * p

/-- The product of two polynomials. -/
def times (p q : Nat) : Nat := combine timesX 32 p q

/-- A polynomial to the power of the number made of the `k` lowest bits of `n`. -/
def power (u : Nat) : Nat → Nat → Nat
  | 0, _ => 1
  | k + 1, n =>
    let root := power u k (n / 2)
    let even := times root root
    if n % 2 = 1 then times u even else even

/-- A polynomial taken at `scramble`. -/
def apply (p : Nat) : UInt32 → UInt32 := combine scramble 32 p

theorem isLinear_apply (p : Nat) : IsLinear (apply p) := isLinear_combine isLinear_scramble 32 p

theorem apply_xor (p q : Nat) (s : UInt32) : apply (p ^^^ q) s = apply p s ^^^ apply q s :=
  combine_xor isLinear_scramble 32 p q s

theorem apply_zero (s : UInt32) : apply 0 s = 0 := combine_zero isLinear_scramble 32 s

theorem apply_one (s : UInt32) : apply 1 s = s := by
  show s ^^^ scramble (combine scramble 31 0 s) = s
  rw [combine_zero isLinear_scramble, isLinear_scramble.map_zero, UInt32.xor_zero]

/-- Reduced polynomials have no coefficient beyond the lowest 32. -/
theorem testBit_timesX (p : Nat) : (timesX p).testBit 32 = false := by
  have doubled : (2 * p).testBit 32 = p.testBit 31 := by
    rw [Nat.testBit_succ, Nat.mul_div_cancel_left p Nat.two_pos]
  rw [timesX]
  split
  · next leading =>
      rw [Nat.testBit_xor, doubled, leading]
      rfl
  · next leading => rw [doubled, Bool.eq_false_of_not_eq_true leading]

theorem apply_timesX (p : Nat) (s : UInt32) : apply (timesX p) s = scramble (apply p s) := by
  have doubled : scramble (apply p s) = combine scramble 33 (2 * p) s :=
    (combine_two_mul 32 p s).symm
  rw [apply, ← combine_succ isLinear_scramble (testBit_timesX p), doubled, timesX]
  split
  · rw [combine_xor isLinear_scramble, combine_characteristic, UInt32.xor_zero]
  · rfl

/-- The unknown stands for `scramble`. -/
theorem apply_two (s : UInt32) : apply 2 s = scramble s := by
  rw [show 2 = timesX 1 from rfl, apply_timesX, apply_one]

/-- **Products of polynomials are compositions of maps.** -/
theorem apply_times (p q : Nat) (s : UInt32) : apply (times p q) s = apply p (apply q s) := by
  -- by induction on how many coefficients of `p` are read
  show apply (combine timesX 32 p q) s = combine scramble 32 p (apply q s)
  generalize 32 = n
  induction n generalizing p with
  | zero => exact apply_zero s
  | succ n ih =>
      have first : apply (if p % 2 = 1 then q else 0) s = if p % 2 = 1 then apply q s else 0 := by
        split
        · rfl
        · exact apply_zero s
      rw [combine, combine, apply_xor, apply_timesX, ih, first]

/-- **Powers of polynomials are iterates of maps.** -/
theorem apply_power (u : Nat) {k n : Nat} (hn : n < 2 ^ k) (s : UInt32) :
    apply (power u k n) s = (apply u)^[n] s := by
  induction k generalizing n s with
  | zero =>
      obtain rfl : n = 0 := by omega
      exact apply_one s
  | succ k ih =>
      have root (s : UInt32) := ih (n := n / 2) (by omega) s
      have even : apply (times (power u k (n / 2)) (power u k (n / 2))) s =
          (apply u)^[2 * (n / 2)] s := by
        rw [apply_times, root, root, two_mul, Function.iterate_add_apply]
      rw [power]
      split
      · next odd =>
          rw [apply_times, even, ← Function.iterate_succ_apply' (apply u)]
          congr 2
          omega
      · next =>
          rw [even]
          congr 2
          omega

end FractalRender.Xorshift
