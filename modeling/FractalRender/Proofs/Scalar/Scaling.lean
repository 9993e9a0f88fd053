import FractalRender.Proofs.Scalar.Count

/-!
# Binary64 — division by powers of two

A power of two has the mantissa `2 ^ 52`, so dividing by it leaves the mantissa of a normal double as
it is and only takes from its exponent: nothing is rounded.

* `unpack_div_two_pow`: the quotient is exact.
* `IsNormal.lt_one`: below 1 are the normal doubles with an exponent below that of 1.
-/

namespace FractalRender.Binary64

open Float.Model Float.Model.UnpackedFloat

/-- **Dividing by a power of two** changes the exponent alone. -/
theorem unpack_div_two_pow {x y : Float} {m : Nat} {e f : Int} {hm : 0 < m} {hp : 0 < 2 ^ 52}
    (hx : x.toModel.unpack = .finite .positive m e hm) (bits : m.log2 = 52)
    (hy : y.toModel.unpack = .finite .positive (2 ^ 52) f hp) (lo : -1021 ≤ e - f)
    (hi : e - f ≤ 1022) :
    (x / y).toModel.unpack = .finite .positive m (e - f - 52) hm := by
  have target : Format.binary64.targetExponent (totalExponent m e - totalExponent (2 ^ 52) f) =
      e - f - 53 := by
    rw [totalExponent, totalExponent, bits, Nat.log2_two_pow, targetExponent_eq (by omega)]
    omega
  have shift : (e - f - (e - f - 53)).toNat = 53 := by omega
  have shifted : m <<< 53 = 2 ^ 52 * m <<< 1 := by
    rw [Nat.shiftLeft_eq, Nat.shiftLeft_eq]
    omega
  have core : divCore .binary64 m e (2 ^ 52) f = (m <<< 1, e - f - 53, .exact) := by
    rw [divCore, target, min_eq_right (by omega), shift, shifted,
      Nat.mul_div_cancel_left _ hp, Nat.mul_mod_right]
    rfl
  have quotient : UnpackedFloat.div .binary64 x.toModel.unpack y.toModel.unpack =
      .finite .positive m (e - f - 52) hm := by
    rw [hx, hy, UnpackedFloat.div, core]
    show roundWithAccuracy .binary64 .positive (m <<< 1) (e - f - 53) .exact = _
    rw [roundWithAccuracy_shiftLeft hm bits 1 (by omega),
      show e - f - 53 + (1 : Nat) = e - f - 52 by omega]
  show (Float.Model.pack (UnpackedFloat.div .binary64 x.toModel.unpack y.toModel.unpack)).unpack = _
  rw [quotient]
  exact unpack_pack hm bits (by omega) (by omega)

/-- A normal double with a smaller exponent than 1 is below 1. -/
theorem IsNormal.lt_one {x : Float} {e : Int} (h : IsNormal x e) (he : e < -52) : x < 1.0 := by
  obtain ⟨m, hm, hx, -⟩ := h
  have one : (1.0 : Float).toModel.unpack = .finite .positive (2 ^ 52) (-52) (by decide) := rfl
  rw [lt_iff, hx, one]
  show some ((compare e (-52)).then (compare m (2 ^ 52))) = some .lt
  rw [Int.compare_eq_lt.mpr he]
  rfl

end FractalRender.Binary64
