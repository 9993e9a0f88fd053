import FractalRender.Proofs.Scalar.Finite

/-!
# Binary64 — the order of the numbers

The doubles but NaN are ordered as their *ranks* are (`rank`): by sign, then by exponent, then by
mantissa, the last two downwards below zero.  So what holds of a linear order holds of them, and a
comparison with NaN is never true.

* `compare_eq_rank`: comparing numbers is comparing their ranks.
* `le_iff_rank`, `lt_iff_rank`: what a comparison of two doubles says.
* `le_trans`, `le_of_not_lt`, `not_lt_of_le`: what follows from that.
* `isNaN_abs`, `isNaN_sub`: the distance of two finite doubles is a number.
* `larger_spec`: the larger one of two numbers.
-/

namespace FractalRender.Binary64

open Float.Model Float.Model.UnpackedFloat

/-! ### Ranks -/

/-- Where a number stands among the others; NaN has the rank of zero. -/
def rank : UnpackedFloat → Int ×ₗ (Int ×ₗ Int)
  | .infinity .negative => toLex (-2, toLex (0, 0))
  | .finite .negative m e _ => toLex (-1, toLex (-e, -m))
  | .zero _ | .notANumber => toLex (0, toLex (0, 0))
  | .finite .positive m e _ => toLex (1, toLex (e, m))
  | .infinity .positive => toLex (2, toLex (0, 0))

theorem compare_natCast (m n : Nat) : compare (m : Int) n = compare m n := by
  simp only [Int.compare_eq_ite_lt, Nat.compare_eq_ite_lt, Int.ofNat_lt]

/-- Opposites are compared the other way round. -/
theorem compare_neg (a b : Int) : compare (-a) (-b) = (compare a b).swap := by
  rw [← Int.compare_swap]
  simp [Int.compare_eq_ite_lt]

/-- **Comparing numbers is comparing their ranks.** -/
theorem compare_eq_rank {u v : UnpackedFloat} (hu : u.isNaN = false) (hv : v.isNaN = false) :
    u.compare v = some (compare (rank u) (rank v)) := by
  cases u with
  | notANumber => cases hu
  | infinity s =>
      cases v with
      | notANumber => cases hv
      | infinity t => cases s <;> cases t <;> rfl
      | zero t => cases s <;> rfl
      | finite t n f hn => cases s <;> cases t <;> rfl
  | zero s =>
      cases v with
      | notANumber => cases hv
      | infinity t => cases t <;> rfl
      | zero t => rfl
      | finite t n f hn => cases t <;> rfl
  | finite s m e hm =>
      cases v with
      | notANumber => cases hv
      | infinity t => cases s <;> cases t <;> rfl
      | zero t => cases s <;> rfl
      | finite t n f hn =>
          -- of one sign the exponents tell, and then the mantissas
          have positive :
              compare (rank (.finite .positive m e hm)) (rank (.finite .positive n f hn)) =
                (compare e f).then (compare (m : Int) n) := rfl
          have negative :
              compare (rank (.finite .negative m e hm)) (rank (.finite .negative n f hn)) =
                (compare (-e) (-f)).then (compare (-m : Int) (-n)) := rfl
          rw [compare_natCast] at positive
          rw [compare_neg, compare_neg, compare_natCast, ← Ordering.swap_then] at negative
          cases s with
          | positive =>
              cases t with
              | positive => exact congrArg some positive.symm
              | negative => rfl
          | negative =>
              cases t with
              | positive => rfl
              | negative => exact congrArg some negative.symm

/-- NaN is not compared with anything. -/
theorem not_isNaN_of_compare {u v : UnpackedFloat} {o : Ordering} (h : u.compare v = some o) :
    u.isNaN = false ∧ v.isNaN = false := by
  cases u with
  | notANumber => cases h
  | _ =>
      cases v with
      | notANumber => cases h
      | _ => exact ⟨rfl, rfl⟩

theorem le_iff_rank {x y : Float} : x ≤ y ↔
    x.isNaN = false ∧ y.isNaN = false ∧ rank x.toModel.unpack ≤ rank y.toModel.unpack := by
  rw [le_iff]
  constructor
  · rintro ⟨o, ho, hle⟩
    obtain ⟨hx, hy⟩ := not_isNaN_of_compare ho
    obtain rfl := Option.some.inj ((compare_eq_rank hx hy).symm.trans ho)
    exact ⟨hx, hy, compare_le_iff_le.mp (Ordering.isLE_iff_ne_gt.mp hle)⟩
  · rintro ⟨hx, hy, hle⟩
    exact ⟨_, compare_eq_rank hx hy, Ordering.isLE_iff_ne_gt.mpr (compare_le_iff_le.mpr hle)⟩

theorem lt_iff_rank {x y : Float} : x < y ↔
    x.isNaN = false ∧ y.isNaN = false ∧ rank x.toModel.unpack < rank y.toModel.unpack := by
  rw [lt_iff]
  constructor
  · intro h
    obtain ⟨hx, hy⟩ := not_isNaN_of_compare h
    exact ⟨hx, hy, compare_lt_iff_lt.mp (Option.some.inj ((compare_eq_rank hx hy).symm.trans h))⟩
  · rintro ⟨hx, hy, hlt⟩
    rw [compare_eq_rank hx hy, compare_lt_iff_lt.mpr hlt]

/-! ### A linear order -/

protected theorem le_refl {x : Float} (h : x.isNaN = false) : x ≤ x :=
  le_iff_rank.mpr ⟨h, h, le_rfl⟩

protected theorem le_trans {x y z : Float} (h : x ≤ y) (h' : y ≤ z) : x ≤ z := by
  obtain ⟨hx, -, hxy⟩ := le_iff_rank.mp h
  obtain ⟨-, hz, hyz⟩ := le_iff_rank.mp h'
  exact le_iff_rank.mpr ⟨hx, hz, hxy.trans hyz⟩

protected theorem le_of_lt {x y : Float} (h : x < y) : x ≤ y := by
  obtain ⟨hx, hy, hlt⟩ := lt_iff_rank.mp h
  exact le_iff_rank.mpr ⟨hx, hy, hlt.le⟩

/-- Of two numbers one is at most the other. -/
protected theorem le_of_not_lt {x y : Float} (hx : x.isNaN = false) (hy : y.isNaN = false)
    (h : ¬ x < y) : y ≤ x :=
  le_iff_rank.mpr ⟨hy, hx, not_lt.mp fun hlt => h (lt_iff_rank.mpr ⟨hx, hy, hlt⟩)⟩

protected theorem not_lt_of_le {x y : Float} (h : y ≤ x) : ¬ x < y := fun hlt =>
  absurd (lt_iff_rank.mp hlt).2.2 (not_lt.mpr (le_iff_rank.mp h).2.2)

/-! ### Distances -/

/-- **Numbers are packed as numbers.** -/
theorem isNaN_unpack_pack {u : UnpackedFloat} (h : u.isNaN = false) :
    (Float.Model.pack u).unpack.isNaN = false := by
  have infinite (s : Sign) :
      (UnpackedFloat.unpack .binary64 (packedInfinity .binary64 s)).isNaN = false := by
    cases s <;> rfl
  show (UnpackedFloat.unpack .binary64 (UnpackedFloat.pack .binary64 u)).isNaN = false
  cases u with
  | notANumber => cases h
  | infinity s => exact infinite s
  | zero s => cases s <;> rfl
  | finite s m e hm =>
      -- an exponent that does not fit makes it infinite
      simp only [UnpackedFloat.pack]
      generalize (e + Format.binary64.exponentBias +
        Format.binary64.mantissaBitsWithoutImplicit).toNat = b
      split
      · exact infinite s
      · next fits =>
          have fits : b < 2047 := Nat.lt_of_succ_lt_succ (Nat.lt_of_not_le fits)
          split
          · exact isNaN_of_isFinite (isFinite_packComponents (exponent_ne_largest fits))
          · exact isNaN_of_isFinite (isFinite_packComponents (by decide))

theorem isNaN_abs {x : Float} (h : x.isNaN = false) : x.abs.isNaN = false := by
  refine isNaN_unpack_pack ?_
  have h : x.toModel.unpack.isNaN = false := h
  generalize x.toModel.unpack = u at h
  cases u with
  | notANumber => cases h
  | _ => rfl

/-- Rounding makes a number. -/
theorem isNaN_roundWithAccuracy (s : Sign) (m : Nat) (e : Int) (a : Accuracy) :
    (roundWithAccuracy .binary64 s m e a).isNaN = false := by
  simp only [roundWithAccuracy]
  split <;> rfl

theorem isNaN_normalize (m e : Int) (s : Sign) :
    (UnpackedFloat.normalize .binary64 m e s).isNaN = false := by
  rw [UnpackedFloat.normalize]
  split
  · exact isNaN_roundWithAccuracy _ _ _ _
  · rfl
  · exact isNaN_roundWithAccuracy _ _ _ _

/-- **The difference of two finite doubles is a number.** -/
theorem isNaN_sub {x y : Float} (hx : x.isFinite = true) (hy : y.isFinite = true) :
    (x - y).isNaN = false := by
  refine isNaN_unpack_pack ?_
  have hx : x.toModel.unpack.isFinite = true := hx
  have hy : y.toModel.unpack.isFinite = true := hy
  generalize x.toModel.unpack = u, y.toModel.unpack = v at hx hy
  cases u with
  | notANumber | infinity s => cases hx
  | zero s =>
      cases v with
      | notANumber | infinity t => cases hy
      | zero t => cases s <;> cases t <;> rfl
      | finite t n f hn => rfl
  | finite s m e hm =>
      cases v with
      | notANumber | infinity t => cases hy
      | zero t => rfl
      | finite t n f hn => exact isNaN_normalize _ _ _

/-- Finite numbers stand below infinity. -/
theorem rank_lt_infinity {u : UnpackedFloat} (h : u.isFinite = true) :
    rank u < rank (.infinity .positive) := by
  cases u with
  | notANumber | infinity s => cases h
  | zero s => exact Prod.Lex.toLex_lt_toLex.mpr (.inl (show (0 : Int) < 2 by decide))
  | finite s m e hm =>
      cases s with
      | positive => exact Prod.Lex.toLex_lt_toLex.mpr (.inl (show (1 : Int) < 2 by decide))
      | negative => exact Prod.Lex.toLex_lt_toLex.mpr (.inl (show (-1 : Int) < 2 by decide))

/-- What lies between zero and a finite double is finite. -/
theorem isFinite_of_le {x y : Float} (hx : 0.0 ≤ x) (hxy : x ≤ y) (hy : y.isFinite = true) :
    x.isFinite = true := by
  have lo : rank (.zero .positive) ≤ rank x.toModel.unpack := (le_iff_rank.mp hx).2.2
  obtain ⟨number, -, hi⟩ := le_iff_rank.mp hxy
  have below := hi.trans_lt (rank_lt_infinity hy)
  have number : x.toModel.unpack.isNaN = false := number
  show x.toModel.unpack.isFinite = true
  generalize x.toModel.unpack = u at lo number below
  cases u with
  | notANumber => cases number
  | zero s | finite s m e hm => rfl
  | infinity s =>
      cases s with
      | positive => exact absurd below (lt_irrefl _)
      | negative => exact absurd lo (by decide)

/-! ### The larger one -/

/-- **The larger one of two numbers** is a number, is at least each of them, and is one of them. -/
theorem larger_spec {x y : Float} (hx : x.isNaN = false) (hy : y.isNaN = false) :
    (Scalar.larger x y).isNaN = false ∧ x ≤ Scalar.larger x y ∧ y ≤ Scalar.larger x y ∧
      (Scalar.larger x y = x ∨ Scalar.larger x y = y) := by
  have hx' : Scalar.isNaN x = false := hx
  by_cases h : x < y
  · have larger : Scalar.larger x y = y := if_pos (by simp [h])
    rw [larger]
    exact ⟨hy, Binary64.le_of_lt h, Binary64.le_refl hy, .inr rfl⟩
  · have larger : Scalar.larger x y = x := if_neg (by simp [h, hx'])
    rw [larger]
    exact ⟨hx, Binary64.le_refl hx, Binary64.le_of_not_lt hx hy h, .inl rfl⟩

end FractalRender.Binary64
