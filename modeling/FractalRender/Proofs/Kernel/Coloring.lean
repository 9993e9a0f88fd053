import FractalRender.Kernel.Interpreted
import FractalRender.Palette
import FractalRender.Proofs.Scalar.Count

/-!
# Colouring — inside and outside

A kernel returns a count of at most the cap.  What of it reaches the palette is a count again, also
where Multibrot stretches it, since all the numbers on the way are small enough for a double: the
stretch goes to one below the cap at most, so only the cap itself is coloured as interior.

* `stretched`: the count that reaches the palette; `colorValue_ofNat` says that it does.
* `stretched_lt_iff`, `stretched_mono`: where it lies, and how it grows.
* `color_eq`: the two branches of the palette, by `IsInterior`.
-/

namespace FractalRender

/-! ### The branches of the palette -/

namespace Palette

variable {α : Type} [Scalar α]

/-- A palette takes the value for one of the interior: it is no number, or has reached the
maximum. -/
def IsInterior (value max : α) : Prop := Scalar.isNaN value = true ∨ max ≤ value

instance (value max : α) : Decidable (IsInterior value max) :=
  inferInstanceAs (Decidable (_ ∨ _))

/-- The colour between two of the eight, for a value that has not reached the maximum. -/
def shade [Elementary α] (p : Palette) (value max : α) : Rgb :=
  let place := Elementary.sqrt (Scalar.larger value 0.0 / max) * 7.0
  let lo := min (Scalar.floor place).toNat 7
  let hi := min (lo + 1) 7
  have fits (i : Nat) : min i 7 < 8 := Nat.lt_succ_of_le (Nat.min_le_right i 7)
  blend (p.stops.get ⟨lo, fits _⟩) (p.stops.get ⟨hi, fits _⟩) (place - Scalar.ofNat lo)

/-- **A palette has two branches.** -/
theorem color_eq [Elementary α] (p : Palette) (value max : α) :
    p.color value max = if IsInterior value max then interior else p.shade value max := by
  simp only [color, Bool.or_eq_true, decide_eq_true_eq]
  rfl

end Palette

/-! ### The count that reaches the palette -/

namespace Kernel

open Binary64

/-- The count that reaches the palette: a Multibrot count below the cap is stretched, to at most
one less than the cap. -/
def stretched (kind : Kind) (cap i : Nat) : Nat :=
  if kind = .multibrot ∧ i < cap then min (12 + i * 14) (cap - 1) else i

variable {kind : Kind} {cap i j : Nat}

theorem stretched_le (hi : i ≤ cap) : stretched kind cap i ≤ cap := by
  rw [stretched]
  split <;> omega

/-- **What reaches the palette stays below the cap** when the count does. -/
theorem stretched_lt_iff : stretched kind cap i < cap ↔ i < cap := by
  rw [stretched]
  split <;> omega

/-- Larger counts reach the palette as larger ones. -/
theorem stretched_mono (hij : i ≤ j) (hj : j ≤ cap) :
    stretched kind cap i ≤ stretched kind cap j := by
  by_cases hk : kind = .multibrot
  · simp only [stretched, hk, true_and]
    split <;> split <;> omega
  · simp only [stretched, hk, false_and, if_false]
    exact hij

/-- The smaller one of two counts. -/
theorem smaller_ofNat {m n : Nat} (hm : m < 2 ^ 53) (hn : n < 2 ^ 53) :
    Scalar.smaller (ofNat m) (ofNat n) = ofNat (min m n) := by
  have number : Scalar.isNaN (ofNat m) = false := isNaN_ofNat hm
  simp only [Scalar.smaller, number, Bool.false_or, decide_eq_true_eq]
  split
  · next h => rw [Nat.min_eq_right ((ofNat_lt_ofNat hn hm).mp h).le]
  · next h =>
      have := mt (ofNat_lt_ofNat hn hm).mpr h
      rw [Nat.min_eq_left (by omega)]

/-- **A count reaches the palette as a count.** -/
theorem colorValue_ofNat (kind : Kind) (cap : UInt32) {i : Nat} (hi : i ≤ cap.toNat) :
    colorValue kind (ofNat i) cap = ofNat (stretched kind cap.toNat i) := by
  have word : cap.toNat < 2 ^ 32 := cap.toNat_lt
  have offset : (12.0 : Float) = ofNat 12 := rfl
  have factor : (14.0 : Float) = ofNat 14 := rfl
  have one : (1.0 : Float) = ofNat 1 := rfl
  have below : ofNat i < ofNat cap.toNat ↔ i < cap.toNat := ofNat_lt_ofNat (by omega) (by omega)
  show (if kind = .multibrot ∧ ofNat i < ofNat cap.toNat then
    Scalar.smaller ((12.0 : Float) + ofNat i * 14.0) (ofNat cap.toNat - 1.0) else ofNat i) = _
  rw [stretched]
  simp only [below]
  split
  · next h =>
      rw [offset, factor, one, ofNat_mul (by omega) (by omega) (by omega), ofNat_add (by omega),
        ofNat_sub (by omega) (by omega), smaller_ofNat (by omega) (by omega)]
  · rfl

/-- A value stays below the cap when its count does. -/
theorem colorValue_lt_iff (kind : Kind) (cap : UInt32) {i : Nat} (hi : i ≤ cap.toNat) :
    colorValue kind (ofNat i) cap < ofNat cap.toNat ↔ i < cap.toNat := by
  have word : cap.toNat < 2 ^ 53 := cap.toNat_lt.trans (by decide)
  rw [colorValue_ofNat kind cap hi, ofNat_lt_ofNat ((stretched_le hi).trans_lt word) word,
    stretched_lt_iff]

/-- **The value that the palette is given** reaches the cap when the count does; it is a number
from 0 to the cap, and does not fall as the count grows. -/
theorem colorValue_bounds (kind : Kind) (cap : UInt32) {i : Nat} (hi : i ≤ cap.toNat) :
    let value := colorValue kind (ofNat i) cap
    (ofNat cap.toNat ≤ value ↔ i = cap.toNat) ∧ value.isNaN = false ∧ 0.0 ≤ value ∧
      value ≤ ofNat cap.toNat ∧
      ∀ j, i ≤ j → j ≤ cap.toNat → value ≤ colorValue kind (ofNat j) cap := by
  have word : cap.toNat < 2 ^ 53 := cap.toNat_lt.trans (by decide)
  have fits {j : Nat} (hj : j ≤ cap.toNat) : stretched kind cap.toNat j < 2 ^ 53 :=
    (stretched_le hj).trans_lt word
  rw [colorValue_ofNat kind cap hi]
  refine ⟨?_, isNaN_ofNat (fits hi), ?_, ?_, fun j hij hj => ?_⟩
  · rw [ofNat_le_ofNat word (fits hi), ← Nat.not_lt, stretched_lt_iff]
    omega
  · exact (ofNat_le_ofNat (i := 0) (by decide) (fits hi)).mpr (Nat.zero_le _)
  · exact (ofNat_le_ofNat (fits hi) word).mpr (stretched_le hi)
  · rw [colorValue_ofNat kind cap hj, ofNat_le_ofNat (fits hi) (fits hj)]
    exact stretched_mono hij hj

end Kernel

end FractalRender
