import FractalRender.Proofs.Scalar.Count

/-!
# Binary64 — finite numbers

A finite double is a number and leaves nothing when it is taken from itself.  It is packed as it was
unpacked, so that a double and its opposite differ in nothing but the sign.

* `isNaN_of_isFinite`, `sub_self`: these two facts.
* `finite_cases`: the mantissas and exponents that there are.
* `unpack_pack_finite`, `unpack_neg`: packing them, and taking the opposite.
* `isFinite_ofNat`, `isFinite_neg`: counts are finite, and the opposites of finite doubles.
-/

namespace FractalRender.Binary64

open Float.Model Float.Model.UnpackedFloat

/-- What is finite is a number. -/
theorem isNaN_of_isFinite {u : UnpackedFloat} (h : u.isFinite = true) : u.isNaN = false := by
  cases u with
  | notANumber => cases h
  | _ => rfl

/-- **A finite double less itself** is zero, without a sign. -/
theorem sub_self {x : Float} (h : x.isFinite = true) : x - x = 0.0 := by
  have difference : UnpackedFloat.sub .binary64 x.toModel.unpack x.toModel.unpack =
      .zero .positive := by
    have h : x.toModel.unpack.isFinite = true := h
    generalize x.toModel.unpack = u at h
    cases u with
    | infinity s => cases h
    | notANumber => cases h
    | zero s => cases s <;> rfl
    | finite s m e hm =>
        simp only [UnpackedFloat.sub, Int.sub_self, UnpackedFloat.normalize]
        rfl
  show Float.ofModel (.pack (UnpackedFloat.sub .binary64 x.toModel.unpack x.toModel.unpack)) = 0.0
  rw [difference]
  rfl

theorem isFinite_ofNat {n : Nat} (hn : n < 2 ^ 53) : (ofNat n).isFinite = true := by
  show (ofNat n).toModel.unpack.isFinite = true
  rcases Nat.eq_zero_or_pos n with rfl | h0
  · rw [unpack_ofNat_zero]
    rfl
  · rw [unpack_ofNat h0 hn]
    rfl

/-- A finite double is normal, or it has a shorter mantissa and the least exponent. -/
theorem finite_cases {x : Float} {s : Sign} {m : Nat} {e : Int} {h : 0 < m}
    (hx : x.toModel.unpack = .finite s m e h) :
    (m.log2 = 52 ∧ -1074 ≤ e ∧ e ≤ 971) ∨ (m < 2 ^ 52 ∧ e = -1074) := by
  have hx : UnpackedFloat.unpack .binary64 x.toModel.toBits.toBitVec = .finite s m e h := hx
  generalize x.toModel.toBits.toBitVec = b at hx
  simp only [UnpackedFloat.unpack] at hx
  have hlt : (@unpackExponent .binary64 b).toNat < 2048 :=
    (@unpackExponent .binary64 b).isLt
  have bias : (Format.binary64.exponentBias : Int) +
      (Format.binary64.mantissaBitsWithoutImplicit : Int) = 1075 := rfl
  split at hx
  · split at hx <;> cases hx
  · next hfinite =>
      have hne : (@unpackExponent .binary64 b).toNat ≠ 2047 := by
        intro hc
        exact hfinite (BitVec.eq_of_toNat_eq hc)
      split at hx
      · next hzero =>
          split at hx
          · cases hx
          · cases hx
            refine .inr ⟨(@unpackMantissa .binary64 b).isLt, ?_⟩
            rw [hzero]
            rfl
      · next hsmall =>
          have hpos : (@unpackExponent .binary64 b).toNat ≠ 0 := by
            intro hc
            exact hsmall (BitVec.eq_of_toNat_eq hc)
          cases hx
          refine .inl ⟨?_, ?_, ?_⟩
          · have bits : (1#1 ++ @unpackMantissa .binary64 b).toNat =
                2 ^ 52 + (@unpackMantissa .binary64 b).toNat := by
              rw [BitVec.toNat_append, ← Nat.shiftLeft_add_eq_or_of_lt
                (@unpackMantissa .binary64 b).isLt]
              rfl
            have hm : (@unpackMantissa .binary64 b).toNat < 2 ^ 52 :=
              (@unpackMantissa .binary64 b).isLt
            rw [bits, Nat.log2_eq_iff (by omega)]
            omega
          · rw [bias]
            omega
          · rw [bias]
            omega

/-- A shorter mantissa with the least exponent is held exactly too. -/
theorem unpack_pack_subnormal {s : Sign} {m : Nat} (h : 0 < m) (hm : m < 2 ^ 52) :
    (Float.Model.pack (.finite s m (-1074) h)).unpack = .finite s m (-1074) h := by
  have bits : m.log2 + 1 ≠ Format.binary64.mantissaBits := by
    have := (Nat.log2_lt h.ne').mpr hm
    show m.log2 + 1 ≠ 53
    omega
  have mantissa : (BitVec.ofNat 52 m).toNat = m := by
    rw [BitVec.toNat_ofNat, Nat.mod_eq_of_lt hm]
  have nonzero : BitVec.ofNat 52 m ≠ 0#52 := by
    intro hc
    have := congrArg BitVec.toNat hc
    rw [mantissa] at this
    exact h.ne' this
  show UnpackedFloat.unpack .binary64 (UnpackedFloat.pack .binary64 (.finite s m (-1074) h)) = _
  simp only [UnpackedFloat.pack]
  rw [if_neg (by decide), if_neg bits, UnpackedFloat.unpack]
  simp only [unpackMantissa_packComponents, unpackExponent_packComponents,
    unpackSign_packComponents, Sign.ofBitVec_toBitVec]
  rw [if_neg (by decide), if_pos trivial, dif_neg nonzero]
  congr 1

/-- **What was unpacked is packed as it was**, with either sign. -/
theorem unpack_pack_finite {x : Float} {s : Sign} {m : Nat} {e : Int} {h : 0 < m}
    (hx : x.toModel.unpack = .finite s m e h) (t : Sign) :
    (Float.Model.pack (.finite t m e h)).unpack = .finite t m e h := by
  rcases finite_cases hx with ⟨bits, lo, hi⟩ | ⟨short, rfl⟩
  · exact unpack_pack h bits lo hi
  · exact unpack_pack_subnormal h short

/-- **The opposite of a double** is that of what it stands for. -/
theorem unpack_neg (x : Float) : (-x).toModel.unpack = x.toModel.unpack.neg := by
  show (Float.Model.pack x.toModel.unpack.neg).unpack = _
  cases hx : x.toModel.unpack with
  | notANumber => rfl
  | infinity s => cases s <;> rfl
  | zero s => cases s <;> rfl
  | finite s m e hm => exact unpack_pack_finite hx (-s)

/-- What is put together with another exponent than the largest one is finite. -/
theorem isFinite_packComponents {s : Sign} {b : BitVec 11} {m : BitVec 52} (hb : b ≠ -1#11) :
    (UnpackedFloat.unpack .binary64 (packComponents .binary64 s b m)).isFinite = true := by
  simp only [UnpackedFloat.unpack, unpackMantissa_packComponents, unpackExponent_packComponents]
  rw [if_neg hb]
  split
  · split <;> rfl
  · rfl

theorem exponent_ne_largest {b : Nat} (hb : b < 2047) : BitVec.ofNat 11 b ≠ -1#11 := by
  intro hc
  have hc := congrArg BitVec.toNat hc
  rw [BitVec.toNat_ofNat, show (-1#11).toNat = 2047 from rfl] at hc
  omega

/-- **The opposite of a finite double is finite.** -/
theorem isFinite_neg {x : Float} (h : x.isFinite = true) : (-x).isFinite = true := by
  have h : x.toModel.unpack.isFinite = true := h
  show (-x).toModel.unpack.isFinite = true
  rw [unpack_neg]
  generalize x.toModel.unpack = u at h
  cases u with
  | notANumber | infinity s => cases h
  | zero s | finite s m e hm => rfl

end FractalRender.Binary64
