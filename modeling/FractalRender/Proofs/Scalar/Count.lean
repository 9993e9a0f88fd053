import FractalRender.Proofs.Scalar.Normal

/-!
# Binary64 — counts

Every count below `2 ^ 53` has a double of its own.

* `compare_ofNat`: the doubles of counts are ordered as the counts are.
* `ofNat_le_ofNat`, `ofNat_lt_ofNat`, `isNaN_ofNat`: what a comparison of two of them says, and that
  each is a number.
* `ofNat_add`, `ofNat_sub`, `ofNat_mul`: arithmetic on counts is exact as long as it gives counts.
-/

namespace FractalRender.Binary64

open Float.Model Float.Model.UnpackedFloat

theorem unpack_ofNat_zero : (ofNat 0).toModel.unpack = .zero .positive := rfl

/-- A number with fewer bits is the smaller one. -/
theorem lt_of_log2_lt {i n : Nat} (hn : n ≠ 0) (h : i.log2 < n.log2) : i < n :=
  Nat.lt_log2_self.trans_le
    ((Nat.pow_le_pow_right Nat.two_pos h).trans (Nat.log2_self_le hn))

/-- **The doubles of counts are ordered as the counts.** -/
theorem compare_ofNat {i n : Nat} (hi : i < 2 ^ 53) (hn : n < 2 ^ 53) :
    (ofNat i).toModel.unpack.compare (ofNat n).toModel.unpack = some (compare i n) := by
  rcases Nat.eq_zero_or_pos i with rfl | hi0
  · rcases Nat.eq_zero_or_pos n with rfl | hn0
    · rfl
    · rw [unpack_ofNat hn0 hn, unpack_ofNat_zero, Nat.compare_eq_lt.mpr hn0]
      rfl
  · rcases Nat.eq_zero_or_pos n with rfl | hn0
    · rw [unpack_ofNat hi0 hi, unpack_ofNat_zero, Nat.compare_eq_gt.mpr hi0]
      rfl
    · rw [unpack_ofNat hi0 hi, unpack_ofNat hn0 hn]
      show some ((compare ((i.log2 : Int) - 52) (n.log2 - 52)).then
        (compare (i <<< (52 - i.log2)) (n <<< (52 - n.log2)))) = _
      -- the number with more bits is the larger one; with the same bits the mantissas tell
      rcases Nat.lt_trichotomy i.log2 n.log2 with hl | hl | hl
      · rw [Int.compare_eq_lt.mpr (by omega), Nat.compare_eq_lt.mpr (lt_of_log2_lt hn0.ne' hl)]
        rfl
      · rw [hl, Int.compare_eq_eq.mpr rfl, Nat.shiftLeft_eq, Nat.shiftLeft_eq]
        simp only [Ordering.then, Nat.compare_eq_ite_lt, Nat.mul_lt_mul_right (Nat.two_pow_pos _)]
      · rw [Int.compare_eq_gt.mpr (by omega), Nat.compare_eq_gt.mpr (lt_of_log2_lt hi0.ne' hl)]
        rfl

theorem le_iff {x y : Float} :
    x ≤ y ↔ ∃ o, x.toModel.unpack.compare y.toModel.unpack = some o ∧ o.isLE = true := by
  show decide (UnpackedFloat.le x.toModel.unpack y.toModel.unpack = true) = true ↔ _
  rw [decide_eq_true_iff, UnpackedFloat.le, Option.any_eq_true]

theorem lt_iff {x y : Float} :
    x < y ↔ x.toModel.unpack.compare y.toModel.unpack = some .lt := by
  show decide (UnpackedFloat.lt x.toModel.unpack y.toModel.unpack = true) = true ↔ _
  rw [decide_eq_true_iff, UnpackedFloat.lt, beq_iff_eq]

theorem ofNat_le_ofNat {i n : Nat} (hi : i < 2 ^ 53) (hn : n < 2 ^ 53) :
    ofNat i ≤ ofNat n ↔ i ≤ n := by
  rw [le_iff, compare_ofNat hi hn]
  simp [Nat.isLE_compare]

theorem ofNat_lt_ofNat {i n : Nat} (hi : i < 2 ^ 53) (hn : n < 2 ^ 53) :
    ofNat i < ofNat n ↔ i < n := by
  rw [lt_iff, compare_ofNat hi hn, Option.some_inj, Nat.compare_eq_lt]

/-- A count is a number. -/
theorem isNaN_ofNat {n : Nat} (hn : n < 2 ^ 53) : (ofNat n).isNaN = false := by
  have h := compare_ofNat hn hn
  show (ofNat n).toModel.unpack.isNaN = false
  generalize (ofNat n).toModel.unpack = u at h
  cases u with
  | notANumber => cases h
  | _ => rfl

/-! ### Arithmetic -/

theorem unpacked_ofNat_zero : UnpackedFloat.ofNat .binary64 0 = .zero .positive := rfl

/-- Rounding a count that zeros follow gives the count. -/
theorem normalize_shiftLeft {n : Nat} (hlt : n < 2 ^ 53) (k : Nat) :
    UnpackedFloat.normalize .binary64 (n <<< k : Nat) (-k) .positive =
      UnpackedFloat.ofNat .binary64 n := by
  rcases Nat.eq_zero_or_pos n with rfl | hn
  · rw [Nat.zero_shiftLeft]
    rfl
  · have hpos : 0 < n <<< k := Nat.shiftLeft_pos_iff.mpr hn
    rw [UnpackedFloat.normalize, Int.compare_eq_gt.mpr (by exact_mod_cast hpos),
      unpacked_ofNat hn hlt]
    exact round_shiftLeft hn hlt k .positive

/-- At a common exponent a count is itself, with zeros after it. -/
theorem decreaseExponent_ofNat {n k : Nat} (hlog : n.log2 ≤ 52) (hk : 52 - n.log2 ≤ k) :
    (decreaseExponent (n <<< (52 - n.log2)) (n.log2 - 52) (-(k : Int))).1 = n <<< k := by
  have shift : ((n.log2 : Int) - 52 - -(k : Int)).toNat = k - (52 - n.log2) := by omega
  rw [decreaseExponent, shift]
  show n <<< (52 - n.log2) <<< (k - (52 - n.log2)) = n <<< k
  rw [← Nat.shiftLeft_add]
  congr 1
  omega

/-- Two counts brought to the smaller one of their exponents. -/
theorem exists_common_exponent {m n : Nat} (hm0 : 0 < m) (hm : m < 2 ^ 53) (hn0 : 0 < n)
    (hn : n < 2 ^ 53) :
    ∃ k : Nat, min ((m.log2 : Int) - 52) (n.log2 - 52) = -(k : Int) ∧
      (decreaseExponent (m <<< (52 - m.log2)) (m.log2 - 52) (-(k : Int))).1 = m <<< k ∧
      (decreaseExponent (n <<< (52 - n.log2)) (n.log2 - 52) (-(k : Int))).1 = n <<< k := by
  have hmlog := log2_le_of_lt hm0 hm
  have hnlog := log2_le_of_lt hn0 hn
  exact ⟨max (52 - m.log2) (52 - n.log2), by omega,
    decreaseExponent_ofNat hmlog (Nat.le_max_left _ _),
    decreaseExponent_ofNat hnlog (Nat.le_max_right _ _)⟩

/-- **Sums of counts are exact.** -/
theorem ofNat_add {m n : Nat} (h : m + n < 2 ^ 53) : ofNat m + ofNat n = ofNat (m + n) := by
  have hm : m < 2 ^ 53 := by omega
  have hn : n < 2 ^ 53 := by omega
  rw [ofNat_eq h]
  show Float.ofModel (.pack (UnpackedFloat.add .binary64 (ofNat m).toModel.unpack
    (ofNat n).toModel.unpack)) = _
  congr 2
  rcases Nat.eq_zero_or_pos m with rfl | hm0
  · rw [unpack_ofNat_zero]
    rcases Nat.eq_zero_or_pos n with rfl | hn0
    · rfl
    · rw [unpack_ofNat hn0 hn, Nat.zero_add, unpacked_ofNat hn0 hn]
      rfl
  · rcases Nat.eq_zero_or_pos n with rfl | hn0
    · rw [unpack_ofNat hm0 hm, unpack_ofNat_zero, Nat.add_zero, unpacked_ofNat hm0 hm]
      rfl
    · obtain ⟨k, common, left, right⟩ := exists_common_exponent hm0 hm hn0 hn
      rw [unpack_ofNat hm0 hm, unpack_ofNat hn0 hn, UnpackedFloat.add, common]
      simp only [left, right]
      show UnpackedFloat.normalize .binary64 ((m <<< k : Nat) + (n <<< k : Nat) : Int) (-k) _ = _
      rw [← normalize_shiftLeft h k, Nat.shiftLeft_eq, Nat.shiftLeft_eq, Nat.shiftLeft_eq,
        Nat.add_mul]
      push_cast
      rfl

/-- **Differences of counts are exact**, of a larger and a smaller one. -/
theorem ofNat_sub {m n : Nat} (hle : n ≤ m) (hm : m < 2 ^ 53) :
    ofNat m - ofNat n = ofNat (m - n) := by
  have hn : n < 2 ^ 53 := by omega
  have h : m - n < 2 ^ 53 := by omega
  rw [ofNat_eq h]
  show Float.ofModel (.pack (UnpackedFloat.sub .binary64 (ofNat m).toModel.unpack
    (ofNat n).toModel.unpack)) = _
  congr 2
  rcases Nat.eq_zero_or_pos n with rfl | hn0
  · rcases Nat.eq_zero_or_pos m with rfl | hm0
    · rfl
    · rw [unpack_ofNat hm0 hm, unpack_ofNat_zero, Nat.sub_zero, unpacked_ofNat hm0 hm]
      rfl
  · have hm0 : 0 < m := hn0.trans_le hle
    obtain ⟨k, common, left, right⟩ := exists_common_exponent hm0 hm hn0 hn
    rw [unpack_ofNat hm0 hm, unpack_ofNat hn0 hn, UnpackedFloat.sub, common]
    simp only [left, right]
    show UnpackedFloat.normalize .binary64 ((m <<< k : Nat) - (n <<< k : Nat) : Int) (-k) _ = _
    have scaled : n <<< k ≤ m <<< k := by
      rw [Nat.shiftLeft_eq, Nat.shiftLeft_eq]
      exact Nat.mul_le_mul_right _ hle
    rw [← normalize_shiftLeft h k, ← Int.ofNat_sub scaled, Nat.shiftLeft_eq, Nat.shiftLeft_eq,
      Nat.shiftLeft_eq, Nat.sub_mul]

/-- **Products of counts are exact.** -/
theorem ofNat_mul {m n : Nat} (hm : m < 2 ^ 53) (hn : n < 2 ^ 53) (h : m * n < 2 ^ 53) :
    ofNat m * ofNat n = ofNat (m * n) := by
  rw [ofNat_eq h]
  show Float.ofModel (.pack (UnpackedFloat.mul .binary64 (ofNat m).toModel.unpack
    (ofNat n).toModel.unpack)) = _
  congr 2
  rcases Nat.eq_zero_or_pos m with rfl | hm0
  · rw [unpack_ofNat_zero, Nat.zero_mul, unpacked_ofNat_zero]
    rcases Nat.eq_zero_or_pos n with rfl | hn0
    · rfl
    · rw [unpack_ofNat hn0 hn]
      rfl
  · rcases Nat.eq_zero_or_pos n with rfl | hn0
    · rw [unpack_ofNat hm0 hm, unpack_ofNat_zero]
      rfl
    · have hpos : 0 < m * n := Nat.mul_pos hm0 hn0
      have hmlog := log2_le_of_lt hm0 hm
      have hnlog := log2_le_of_lt hn0 hn
      have hlog := log2_le_of_lt hpos h
      have large : m.log2 + n.log2 ≤ (m * n).log2 := by
        rw [Nat.le_log2 hpos.ne', Nat.pow_add]
        exact Nat.mul_le_mul (Nat.log2_self_le hm0.ne') (Nat.log2_self_le hn0.ne')
      -- the mantissas multiply to the count, with its bits at the front and zeros after it
      have product : m <<< (52 - m.log2) * n <<< (52 - n.log2) =
          (m * n) <<< (52 - (m * n).log2) <<<
            (52 - m.log2 + (52 - n.log2) - (52 - (m * n).log2)) := by
        rw [← Nat.shiftLeft_add, Nat.shiftLeft_eq, Nat.shiftLeft_eq, Nat.shiftLeft_eq,
          Nat.mul_mul_mul_comm, ← Nat.pow_add]
        congr 2
        omega
      rw [unpack_ofNat hm0 hm, unpack_ofNat hn0 hn, UnpackedFloat.mul, product,
        unpacked_ofNat hpos h]
      refine (roundWithAccuracy_shiftLeft (Nat.shiftLeft_pos_iff.mpr hpos) (log2_front hpos h) _ ?_
        _).trans ?_
      · omega
      · congr 1
        omega

end FractalRender.Binary64
