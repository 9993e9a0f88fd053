import FractalRender.Scalar.Binary64
import Mathlib

/-!
# Binary64 — quotients in the middle of the range

A positive double is *normal* with exponent `e` when it is `m * 2 ^ e` for a mantissa `m` of 53 bits
(`IsNormal`).  Rounding drops no more bits of a longer mantissa than there are to drop, so what it
makes of one is normal again as long as the exponent fits.

* `roundWithAccuracy_normal`: rounding a mantissa of at least 53 bits.
* `roundWithAccuracy_shiftLeft`: rounding drops zeros and leaves nothing else out.
* `unpack_ofNat`: a count below `2 ^ 53` is held exactly.
* `IsNormal.ofNat`, `IsNormal.div`: counts are normal, and so are quotients.
-/

namespace FractalRender.Binary64

open Float.Model Float.Model.UnpackedFloat

/-- The double is `m * 2 ^ e` for a mantissa of 53 bits. -/
def IsNormal (x : Float) (e : Int) : Prop :=
  ∃ (m : Nat) (h : 0 < m), x.toModel.unpack = .finite .positive m e h ∧ m.log2 = 52

/-! ### Mantissas -/

theorem mantissa_shiftRight (em : ExtendedMantissa) (k : Nat) :
    (em >>> k).mantissa = em.mantissa / 2 ^ k := by
  show (k.repeat ExtendedMantissa.shiftRightOne em).mantissa = _
  induction k with
  | zero => simp [Nat.repeat]
  | succ k ih =>
      show (k.repeat ExtendedMantissa.shiftRightOne em).mantissa / 2 = _
      rw [ih, Nat.div_div_eq_div_mul, Nat.pow_succ]

theorem mantissa_ofMantissaAndAccuracy (m : Nat) (a : Accuracy) :
    (ExtendedMantissa.ofMantissaAndAccuracy m a).mantissa = m := by
  cases a with
  | exact => rfl
  | inexact o => cases o <;> rfl

/-- Rounding goes to the mantissa or to the next one. -/
theorem roundedMantissa_bounds (em : ExtendedMantissa) :
    em.mantissa ≤ em.roundedMantissa ∧ em.roundedMantissa ≤ em.mantissa + 1 := by
  obtain ⟨m, round, sticky⟩ := em
  cases round <;> cases sticky
  all_goals
    simp only [ExtendedMantissa.roundedMantissa, ExtendedMantissa.accuracy,
      Accuracy.roundToNearestEven]
    omega

/-- The leading 53 bits of a number that has so many. -/
theorem log2_leading {m : Nat} (hm : 52 ≤ m.log2) : (m / 2 ^ (m.log2 - 52)).log2 = 52 := by
  have hm0 : m ≠ 0 := by
    rintro rfl
    simp at hm
  obtain ⟨lo, hi⟩ := (Nat.log2_eq_iff hm0).mp rfl
  have hlo : 2 ^ 52 ≤ m / 2 ^ (m.log2 - 52) := by
    rw [Nat.le_div_iff_mul_le (Nat.two_pow_pos _), ← Nat.pow_add]
    rwa [show 52 + (m.log2 - 52) = m.log2 by omega]
  have hhi : m / 2 ^ (m.log2 - 52) < 2 ^ 53 := by
    rw [Nat.div_lt_iff_lt_mul (Nat.two_pow_pos _), ← Nat.pow_add]
    rwa [show 53 + (m.log2 - 52) = m.log2 + 1 by omega]
  exact (Nat.log2_eq_iff (by omega)).mpr ⟨hlo, hhi⟩

theorem log2_shiftLeft {m : Nat} (hm : m ≠ 0) (k : Nat) : (m <<< k).log2 = m.log2 + k := by
  induction k with
  | zero => rfl
  | succ k ih =>
      have hk : m <<< k ≠ 0 := by simp [Nat.shiftLeft_eq, hm]
      rw [Nat.shiftLeft_succ, Nat.log2_two_mul hk, ih, Nat.add_assoc]

theorem log2_le_of_lt {n : Nat} (hn : 0 < n) (hlt : n < 2 ^ 53) : n.log2 ≤ 52 :=
  Nat.le_of_lt_succ ((Nat.log2_lt hn.ne').mpr hlt)

/-- A count whose bits are shifted to the front has 53 of them. -/
theorem log2_front {n : Nat} (hn : 0 < n) (hlt : n < 2 ^ 53) : (n <<< (52 - n.log2)).log2 = 52 := by
  have := log2_le_of_lt hn hlt
  rw [log2_shiftLeft hn.ne']
  omega

/-- In the middle of the range a mantissa has 53 bits. -/
theorem targetExponent_eq {d : Int} (h : -1021 ≤ d) :
    Format.binary64.targetExponent d = d - 53 := by
  simp only [Format.targetExponent, Format.mantissaBits, Format.minExponent]
  norm_num
  omega

/-- Shifting keeps the leading 53 bits. -/
theorem shiftToTargetExponent_normal {m : Nat} {e : Int} (hm : 52 ≤ m.log2)
    (he : -1074 ≤ m.log2 + e - 52) (a : Accuracy) :
    (shiftToTargetExponent .binary64 m e a).1.mantissa = m / 2 ^ (m.log2 - 52) ∧
      (shiftToTargetExponent .binary64 m e a).2 = m.log2 + e - 52 := by
  have target : Format.binary64.targetExponent (totalExponent m e) = m.log2 + e - 52 := by
    rw [totalExponent, targetExponent_eq (by omega)]
    omega
  have shift : (Format.binary64.targetExponent (totalExponent m e) - e).toNat = m.log2 - 52 := by
    omega
  rw [shiftToTargetExponent, shiftToExponent, shift]
  refine ⟨?_, ?_⟩
  · rw [mantissa_shiftRight, mantissa_ofMantissaAndAccuracy]
  · show e + ((m.log2 - 52 : Nat) : Int) = _
    omega

/-- **Rounding a mantissa of at least 53 bits** gives one of 53 bits.  The exponent grows by the
bits that are dropped, and by one more if the leading bits are rounded up to a power of two. -/
theorem roundWithAccuracy_normal {m : Nat} {e : Int} (hm : 52 ≤ m.log2)
    (he : -1074 ≤ m.log2 + e - 52) (s : Sign) (a : Accuracy) :
    ∃ (n : Nat) (f : Int) (h : 0 < n), roundWithAccuracy .binary64 s m e a = .finite s n f h ∧
      n.log2 = 52 ∧ (f = m.log2 + e - 52 ∨ f = m.log2 + e - 51) := by
  obtain ⟨hfirst, hexp⟩ := shiftToTargetExponent_normal hm he a
  have hbits := log2_leading hm
  rw [← hfirst] at hbits
  rw [roundWithAccuracy]
  generalize shiftToTargetExponent .binary64 m e a = first at hfirst hexp hbits
  obtain ⟨em, e'⟩ := first
  obtain ⟨hlo, hhi⟩ := roundedMantissa_bounds em
  dsimp only at hexp hbits hlo hhi ⊢
  generalize em.roundedMantissa = r at hlo hhi
  have hem : em.mantissa ≠ 0 := by
    intro h
    rw [h] at hbits
    simp at hbits
  obtain ⟨hlo', hhi'⟩ := (Nat.log2_eq_iff hem).mp hbits
  have hr0 : r ≠ 0 := by omega
  -- rounding up may have made a number of 54 bits, and then it is a power of two
  have hr : r.log2 = 52 ∨ r.log2 = 53 := by
    by_cases hr : r < 2 ^ 53
    · exact .inl ((Nat.log2_eq_iff hr0).mpr ⟨by omega, hr⟩)
    · exact .inr ((Nat.log2_eq_iff hr0).mpr ⟨by omega, by omega⟩)
  obtain ⟨hsecond, hexp'⟩ := shiftToTargetExponent_normal (m := r) (e := e') (by omega) (by omega)
    .exact
  have hbits' := log2_leading (m := r) (by omega)
  rw [← hsecond] at hbits'
  generalize shiftToTargetExponent .binary64 r e' .exact = second at hsecond hexp' hbits'
  obtain ⟨em', e''⟩ := second
  dsimp only at hexp' hbits' ⊢
  have hpos : em'.mantissa ≠ 0 := by
    intro h
    rw [h] at hbits'
    simp at hbits'
  refine ⟨em'.mantissa, e'', Nat.pos_of_ne_zero hpos, dif_neg hpos, hbits', ?_⟩
  rcases hr with hr | hr
  · left
    omega
  · right
    omega

/-- Bits that are 0 leave no trace when they are dropped. -/
theorem shiftRight_shiftLeft (m k : Nat) :
    ExtendedMantissa.mk (m <<< k) false false >>> k = ⟨m, false, false⟩ := by
  show k.repeat ExtendedMantissa.shiftRightOne _ = _
  induction k generalizing m with
  | zero => rfl
  | succ k ih =>
      show (k.repeat ExtendedMantissa.shiftRightOne ⟨(2 * m) <<< k, false, false⟩).shiftRightOne = _
      rw [ih]
      show ExtendedMantissa.mk (2 * m / 2) (2 * m % 2 != 0) false = _
      rw [Nat.mul_div_cancel_left m Nat.two_pos, Nat.mul_mod_right]
      rfl

/-- A mantissa of 53 bits that zeros follow loses the zeros. -/
theorem shiftToTargetExponent_shiftLeft {m : Nat} {e : Int} (hm : m.log2 = 52) (k : Nat)
    (he : -1074 ≤ e + k) :
    shiftToTargetExponent .binary64 (m <<< k) e .exact = (⟨m, false, false⟩, e + k) := by
  have hm0 : m ≠ 0 := by
    rintro rfl
    simp at hm
  have bits : (m <<< k).log2 = 52 + k := by rw [log2_shiftLeft hm0, hm]
  have target : Format.binary64.targetExponent (totalExponent (m <<< k) e) = e + k := by
    rw [totalExponent, bits, targetExponent_eq (by omega)]
    omega
  have shift : (e + k - e).toNat = k := by omega
  rw [shiftToTargetExponent, shiftToExponent, target, shift]
  show (ExtendedMantissa.mk (m <<< k) false false >>> k, e + (k : Int)) = _
  rw [shiftRight_shiftLeft]

/-- **Rounding a mantissa of 53 bits that zeros follow** drops the zeros and nothing else. -/
theorem roundWithAccuracy_shiftLeft {m : Nat} {e : Int} (h : 0 < m) (hm : m.log2 = 52) (k : Nat)
    (he : -1074 ≤ e + k) (s : Sign) :
    roundWithAccuracy .binary64 s (m <<< k) e .exact = .finite s m (e + k) h := by
  have rounded : (ExtendedMantissa.mk m false false).roundedMantissa = m := rfl
  have again := shiftToTargetExponent_shiftLeft hm 0 (e := e + k) (by omega)
  rw [Nat.shiftLeft_zero] at again
  simp only [roundWithAccuracy, shiftToTargetExponent_shiftLeft hm k he, rounded, again]
  simp [h.ne']

/-- **Rounding a count** that zeros follow shifts its bits to the front of the mantissa. -/
theorem round_shiftLeft {n : Nat} (hn : 0 < n) (hlt : n < 2 ^ 53) (k : Nat) (s : Sign) :
    UnpackedFloat.round .binary64 s (n <<< k) (-k) =
      .finite s (n <<< (52 - n.log2)) (n.log2 - 52) (Nat.shiftLeft_pos_iff.mpr hn) := by
  have hlog := log2_le_of_lt hn hlt
  have target : Format.binary64.targetExponent (totalExponent (n <<< k) (-k)) = n.log2 - 52 := by
    rw [totalExponent, log2_shiftLeft hn.ne', targetExponent_eq (by omega)]
    omega
  have shift : (-(k : Int) - (n.log2 - 52)).toNat = 52 - n.log2 - k := by omega
  -- either way the bits come to the front, and zeros follow them if there were too many
  have shifted : n <<< k <<< (52 - n.log2 - k) = n <<< (52 - n.log2) <<< (k - (52 - n.log2)) := by
    rw [← Nat.shiftLeft_add, ← Nat.shiftLeft_add]
    congr 1
    omega
  rw [UnpackedFloat.round, target, decreaseExponent, shift, shifted]
  refine (roundWithAccuracy_shiftLeft (Nat.shiftLeft_pos_iff.mpr hn) (log2_front hn hlt) _
    (by omega) s).trans ?_
  congr 1
  omega

/-! ### Normal doubles -/

/-- A number of 53 bits whose exponent fits is held exactly. -/
theorem unpack_pack {s : Sign} {m : Nat} {e : Int} (h : 0 < m) (hm : m.log2 = 52)
    (lo : -1074 ≤ e) (hi : e ≤ 971) :
    (Float.Model.pack (.finite s m e h)).unpack = .finite s m e h := by
  obtain ⟨hlo, hhi⟩ := (Nat.log2_eq_iff h.ne').mp hm
  obtain ⟨b, hb⟩ : ∃ b : Nat, (b : Int) = e + 1075 := ⟨(e + 1075).toNat, by omega⟩
  have biased : (e + Format.binary64.exponentBias +
      Format.binary64.mantissaBitsWithoutImplicit).toNat = b := by
    show (e + (1023 : Int) + (52 : Int)).toNat = b
    omega
  have exponent : (BitVec.ofNat 11 b).toNat = b := by
    rw [BitVec.toNat_ofNat]
    omega
  have notInfinite : BitVec.ofNat 11 b ≠ -1#11 := by
    intro hc
    have := congrArg BitVec.toNat hc
    rw [exponent] at this
    simp at this
    omega
  have notSmall : BitVec.ofNat 11 b ≠ 0#11 := by
    intro hc
    have := congrArg BitVec.toNat hc
    rw [exponent] at this
    simp at this
    omega
  -- the leading bit is left out, and put back
  have mantissa : (1#1 ++ BitVec.ofNat 52 m).toNat = m := by
    rw [BitVec.toNat_append, ← Nat.shiftLeft_add_eq_or_of_lt (BitVec.ofNat 52 m).isLt,
      BitVec.toNat_ofNat, Nat.shiftLeft_eq]
    simp only [BitVec.toNat_ofNat]
    omega
  show UnpackedFloat.unpack .binary64 (UnpackedFloat.pack .binary64 (.finite s m e h)) = _
  rw [UnpackedFloat.pack]
  simp only [biased, hm]
  rw [if_neg (by omega), if_pos (by rfl), UnpackedFloat.unpack]
  simp only [unpackMantissa_packComponents, unpackExponent_packComponents,
    unpackSign_packComponents, Sign.ofBitVec_toBitVec, if_neg notInfinite, if_neg notSmall,
    mantissa, exponent]
  congr 1
  show (b : Int) - (1023 + 52) = e
  omega

theorem IsNormal.of_unpacked {s : UnpackedFloat} {m : Nat} {e : Int} {h : 0 < m}
    (hs : s = .finite .positive m e h) (hm : m.log2 = 52) (lo : -1074 ≤ e) (hi : e ≤ 971) :
    IsNormal (.ofModel (.pack s)) e :=
  ⟨m, h, by rw [hs]; exact unpack_pack h hm lo hi, hm⟩

/-- A normal double is finite and above 0. -/
theorem IsNormal.pos {x : Float} {e : Int} (h : IsNormal x e) : x.isFinite = true ∧ 0.0 < x := by
  obtain ⟨m, hm, hx, -⟩ := h
  refine ⟨?_, ?_⟩
  · show x.toModel.unpack.isFinite = true
    rw [hx]
    rfl
  · show decide (UnpackedFloat.lt _ x.toModel.unpack = true) = true
    rw [hx]
    rfl

/-- A count below `2 ^ 53` is not rounded. -/
theorem unpacked_ofNat {n : Nat} (hn : 0 < n) (hlt : n < 2 ^ 53) :
    UnpackedFloat.ofNat .binary64 n =
      .finite .positive (n <<< (52 - n.log2)) (n.log2 - 52) (Nat.shiftLeft_pos_iff.mpr hn) := by
  rw [UnpackedFloat.ofNat, UnpackedFloat.ofInt, UnpackedFloat.normalize,
    Int.compare_eq_gt.mpr (by omega)]
  exact round_shiftLeft hn hlt 0 .positive

/-- The double of a count is that count, rounded. -/
theorem ofNat_eq {n : Nat} (hlt : n < 2 ^ 53) :
    Binary64.ofNat n = .ofModel (.pack (UnpackedFloat.ofNat .binary64 n)) := by
  have word : n.toUInt64.toNat = n := UInt64.toNat_ofNat_of_lt' (by simp only [UInt64.size]; omega)
  rw [Binary64.ofNat, if_pos (by simp only [UInt64.size]; omega)]
  show Float.ofModel (.pack (UnpackedFloat.ofNat .binary64 n.toUInt64.toNat)) = _
  rw [word]

/-- **A count is held exactly**: its bits, shifted to the front of the mantissa. -/
theorem unpack_ofNat {n : Nat} (hn : 0 < n) (hlt : n < 2 ^ 53) :
    (Binary64.ofNat n).toModel.unpack =
      .finite .positive (n <<< (52 - n.log2)) (n.log2 - 52) (Nat.shiftLeft_pos_iff.mpr hn) := by
  have hlog := log2_le_of_lt hn hlt
  rw [ofNat_eq hlt]
  show (Float.Model.pack (UnpackedFloat.ofNat .binary64 n)).unpack = _
  rw [unpacked_ofNat hn hlt]
  exact unpack_pack _ (log2_front hn hlt) (by omega) (by omega)

/-- Counts are normal. -/
theorem IsNormal.ofNat {n : Nat} (hn : 0 < n) (hlt : n < 2 ^ 53) :
    ∃ e, IsNormal (Binary64.ofNat n) e ∧ -52 ≤ e ∧ e ≤ 1 := by
  have hlog := log2_le_of_lt hn hlt
  exact ⟨n.log2 - 52, ⟨_, _, unpack_ofNat hn hlt, log2_front hn hlt⟩, by omega, by omega⟩

/-- **Quotients of normal doubles are normal** if their exponents fit. -/
theorem IsNormal.div {x y : Float} {e f : Int} (hx : IsNormal x e) (hy : IsNormal y f)
    (lo : -1021 ≤ e - f) (hi : e - f ≤ 1022) :
    ∃ g, IsNormal (x / y) g := by
  obtain ⟨m, hm0, hxm, hm⟩ := hx
  obtain ⟨n, hn0, hyn, hn⟩ := hy
  obtain ⟨mlo, mhi⟩ := (Nat.log2_eq_iff hm0.ne').mp hm
  obtain ⟨nlo, nhi⟩ := (Nat.log2_eq_iff hn0.ne').mp hn
  have target : Format.binary64.targetExponent (totalExponent m e - totalExponent n f) =
      e - f - 53 := by
    rw [totalExponent, totalExponent, hm, hn, targetExponent_eq (by omega)]
    omega
  have core : divCore .binary64 m e n f =
      ((m <<< 53) / n, e - f - 53, accuracyOfFraction ((m <<< 53) % n) n) := by
    rw [divCore, target, min_eq_right (by omega),
      show (e - f - (e - f - 53)).toNat = 53 by omega]
  -- the quotient of the mantissas has 53 or 54 bits
  have qlo : 2 ^ 52 ≤ (m <<< 53) / n := by
    rw [Nat.shiftLeft_eq, Nat.le_div_iff_mul_le hn0]
    omega
  have qhi : (m <<< 53) / n < 2 ^ 54 := by
    rw [Nat.shiftLeft_eq, Nat.div_lt_iff_lt_mul hn0]
    omega
  have hq : ((m <<< 53) / n).log2 = 52 ∨ ((m <<< 53) / n).log2 = 53 := by
    by_cases hq : (m <<< 53) / n < 2 ^ 53
    · exact .inl ((Nat.log2_eq_iff (by omega)).mpr ⟨qlo, hq⟩)
    · exact .inr ((Nat.log2_eq_iff (by omega)).mpr ⟨by omega, qhi⟩)
  obtain ⟨p, g, h, hround, hp, hg⟩ := roundWithAccuracy_normal (m := (m <<< 53) / n)
    (e := e - f - 53) (by omega) (by omega) .positive (accuracyOfFraction ((m <<< 53) % n) n)
  refine ⟨g, IsNormal.of_unpacked (h := h) ?_ hp (by omega) (by omega)⟩
  rw [hxm, hyn, UnpackedFloat.div, core]
  exact hround

end FractalRender.Binary64
