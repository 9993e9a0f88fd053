import Mathlib
import FractalRender.Proofs.Scalar.Exact
import FractalRender.Proofs.Scalar.Order

/-!
# Opposite numbers

Arithmetic treats a number and its opposite alike: it makes of the opposites of its operands the
opposite of its result, or the result itself where their signs cancel.  Over an ordered field this
is plain.  Binary64 rounds to the nearest number, which does not depend on the sign, but it has two
zeros, and a sum that cancels is the positive one whatever the signs were; so two zeros are taken as
opposite, and as the same, whichever they are.  Nothing but a division by zero tells them apart.

* `OppositeNumbers`: numbers of which this holds; `Opposite o a b` says that `b` is `a`, or its
  opposite if `o` is true.
* `Turned`: the same of binary64 before it is packed; `turned_add`, `turned_mul` and the lemmas with
  them are its laws, and `turned_pack` takes them to the doubles.
-/

namespace FractalRender

/-- Numbers whose arithmetic treats a number and its opposite alike. -/
class OppositeNumbers (α : Type) [Scalar α] where
  /-- The second number is the first one, or its opposite if the flag is set; zeros are both. -/
  Opposite : Bool → α → α → Prop
  refl (a : α) : Opposite false a a
  neg (a : α) : Opposite true a (-a)
  zero : Opposite true (0.0 : α) 0.0
  symm {o : Bool} {a b : α} : Opposite o a b → Opposite o b a
  add {o : Bool} {a b c d : α} : Opposite o a b → Opposite o c d → Opposite o (a + c) (b + d)
  sub {o : Bool} {a b c d : α} : Opposite o a b → Opposite o c d → Opposite o (a - c) (b - d)
  mul {o p : Bool} {a b c d : α} :
    Opposite o a b → Opposite p c d → Opposite (o ^^ p) (a * c) (b * d)
  /-- A divisor that does not lie below a positive number is not zero. -/
  div {o : Bool} {a b c d least : α} : (0.0 : α) < least → ¬ c < least →
    Opposite o a b → Opposite false c d → Opposite o (a / c) (b / d)
  abs {o : Bool} {a b : α} : Opposite o a b → Opposite false (Scalar.abs a) (Scalar.abs b)
  lt_iff {a b c d : α} : Opposite false a b → Opposite false c d → (a < c ↔ b < d)

/-! ### Exact numbers -/

instance : OppositeNumbers ℚ where
  Opposite o a b := b = if o then -a else a
  refl _ := rfl
  neg _ := rfl
  zero := by norm_num
  symm {o a b} h := by
    cases o
    · exact h.symm
    · subst h
      exact (neg_neg a).symm
  add {o a b c d} h h' := by
    subst h h'
    cases o
    · rfl
    · exact (neg_add a c).symm
  sub {o a b c d} h h' := by
    subst h h'
    cases o
    · rfl
    · show -a - -c = -(a - c)
      ring
  mul {o p a b c d} h h' := by
    subst h h'
    cases o <;> cases p
    · rfl
    · exact mul_neg a c
    · exact neg_mul a c
    · exact neg_mul_neg a c
  div {o a b c d least} _ _ h h' := by
    subst h h'
    cases o
    · rfl
    · exact neg_div _ _
  abs {o a b} h := by
    subst h
    cases o
    · rfl
    · exact abs_neg a
  lt_iff h h' := by
    subst h h'
    rfl

/-! ### Binary64 before it is packed -/

namespace Binary64

open Float.Model Float.Model.UnpackedFloat

/-- The sign, or the other one if the flag is set. -/
def turn (o : Bool) (s : Sign) : Sign := bif o then -s else s

/-- The number, or its opposite if the flag is set. -/
def turnInt (o : Bool) (n : Int) : Int := bif o then -n else n

theorem turn_mul (o p : Bool) (s t : Sign) : turn (o ^^ p) (s * t) = turn o s * turn p t := by
  cases o <;> cases p <;> cases s <;> cases t <;> rfl

theorem turn_div (o : Bool) (s t : Sign) : turn o (s / t) = turn o s / t := by
  cases o <;> cases s <;> cases t <;> rfl

theorem apply_turn (o : Bool) (s : Sign) (n : Int) :
    (turn o s).apply n = turnInt o (s.apply n) := by
  cases o with
  | false => rfl
  | true =>
      cases s with
      | positive => rfl
      | negative => exact (Int.neg_neg n).symm

/-- The second number is the first one, or its opposite if the flag is set; zeros are both. -/
inductive Turned (o : Bool) : UnpackedFloat → UnpackedFloat → Prop where
  | notANumber : Turned o .notANumber .notANumber
  | infinity (s : Sign) : Turned o (.infinity s) (.infinity (turn o s))
  | zero (s t : Sign) : Turned o (.zero s) (.zero t)
  | finite (s : Sign) (m : Nat) (e : Int) (hm : 0 < m) :
      Turned o (.finite s m e hm) (.finite (turn o s) m e hm)

theorem turned_refl (u : UnpackedFloat) : Turned false u u := by
  cases u with
  | notANumber => exact .notANumber
  | infinity s => exact .infinity s
  | zero s => exact .zero s s
  | finite s m e hm => exact .finite s m e hm

theorem turned_neg (u : UnpackedFloat) : Turned true u u.neg := by
  cases u with
  | notANumber => exact .notANumber
  | infinity s => exact .infinity s
  | zero s => exact .zero s (-s)
  | finite s m e hm => exact .finite s m e hm

variable {o p : Bool} {u v w x : UnpackedFloat}

theorem Turned.symm (h : Turned o u v) : Turned o v u := by
  have back (s : Sign) : s = turn o (turn o s) := by cases o <;> cases s <;> rfl
  cases h with
  | notANumber => exact .notANumber
  | infinity s =>
      have := Turned.infinity (o := o) (turn o s)
      rwa [← back] at this
  | zero s t => exact .zero t s
  | finite s m e hm =>
      have := Turned.finite (o := o) (turn o s) m e hm
      rwa [← back] at this

/-! ### Rounding -/

/-- **Rounding does not depend on the sign.** -/
theorem turned_round (o : Bool) (s : Sign) (m : Nat) (e : Int) (a : Accuracy) :
    Turned o (roundWithAccuracy .binary64 s m e a)
      (roundWithAccuracy .binary64 (turn o s) m e a) := by
  simp only [roundWithAccuracy]
  split
  · exact .zero _ _
  · exact .finite _ _ _ _

theorem turned_normalize (o : Bool) (m e : Int) (t : Sign) :
    Turned o (UnpackedFloat.normalize .binary64 m e t)
      (UnpackedFloat.normalize .binary64 (turnInt o m) e t) := by
  cases o with
  | false => exact turned_refl _
  | true =>
      show Turned true _ (UnpackedFloat.normalize .binary64 (-m) e t)
      rcases lt_trichotomy m 0 with h | rfl | h
      · rw [UnpackedFloat.normalize, UnpackedFloat.normalize, Int.compare_eq_lt.mpr h,
          Int.compare_eq_gt.mpr (by omega)]
        exact turned_round true .negative _ _ _
      · exact .zero t t
      · rw [UnpackedFloat.normalize, UnpackedFloat.normalize, Int.compare_eq_gt.mpr h,
          Int.compare_eq_lt.mpr (by omega), Int.neg_neg]
        exact turned_round true .positive _ _ _

/-! ### Arithmetic -/

theorem turned_add (h : Turned o u v) (h' : Turned o w x) :
    Turned o (UnpackedFloat.add .binary64 u w) (UnpackedFloat.add .binary64 v x) := by
  cases h with
  | notANumber => exact .notANumber
  | infinity s =>
      cases h' with
      | notANumber => exact .notANumber
      | infinity t =>
          cases o <;> cases s <;> cases t
          all_goals first | exact .notANumber | exact .infinity _
      | zero t t' => exact .infinity s
      | finite t n f hn => exact .infinity s
  | zero s s' =>
      cases h' with
      | notANumber => exact .notANumber
      | infinity t => exact .infinity t
      | zero t t' => cases s <;> cases s' <;> cases t <;> cases t' <;> exact .zero _ _
      | finite t n f hn => exact .finite t n f hn
  | finite s m e hm =>
      cases h' with
      | notANumber => exact .notANumber
      | infinity t => exact .infinity t
      | zero t t' => exact .finite s m e hm
      | finite t n f hn =>
          have sum (a b : Int) : (turn o s).apply a + (turn o t).apply b =
              turnInt o (s.apply a + t.apply b) := by
            rw [apply_turn, apply_turn]
            cases o with
            | false => rfl
            | true => exact (Int.neg_add).symm
          simp only [UnpackedFloat.add, sum]
          exact turned_normalize o _ _ _

/-- A difference is a sum with the opposite. -/
theorem sub_eq_add_neg (u v : UnpackedFloat) :
    UnpackedFloat.sub .binary64 u v = UnpackedFloat.add .binary64 u v.neg := by
  cases u with
  | notANumber => rfl
  | infinity s => cases v <;> rfl
  | zero s => cases v <;> rfl
  | finite s m e hm =>
      cases v with
      | notANumber => rfl
      | infinity t => rfl
      | zero t => rfl
      | finite t n f hn =>
          have sum (a b : Int) : s.apply a - t.apply b = s.apply a + (-t).apply b := by
            cases t with
            | negative => exact Int.sub_neg _ _
            | positive => exact Int.sub_eq_add_neg
          simp only [UnpackedFloat.sub, UnpackedFloat.add, UnpackedFloat.neg, sum]

theorem Turned.neg (h : Turned o u v) : Turned o u.neg v.neg := by
  have turn_neg (s : Sign) : turn o (-s) = -turn o s := by cases o <;> cases s <;> rfl
  cases h with
  | notANumber => exact .notANumber
  | infinity s =>
      have := Turned.infinity (o := o) (-s)
      rwa [turn_neg] at this
  | zero s t => exact .zero (-s) (-t)
  | finite s m e hm =>
      have := Turned.finite (o := o) (-s) m e hm
      rwa [turn_neg] at this

theorem turned_sub (h : Turned o u v) (h' : Turned o w x) :
    Turned o (UnpackedFloat.sub .binary64 u w) (UnpackedFloat.sub .binary64 v x) := by
  rw [sub_eq_add_neg, sub_eq_add_neg]
  exact turned_add h h'.neg

theorem turned_mul (h : Turned o u v) (h' : Turned p w x) :
    Turned (o ^^ p) (UnpackedFloat.mul .binary64 u w) (UnpackedFloat.mul .binary64 v x) := by
  have infinity (s t : Sign) :
      Turned (o ^^ p) (.infinity (s * t)) (.infinity (turn o s * turn p t)) := by
    rw [← turn_mul]
    exact .infinity (s * t)
  cases h with
  | notANumber => exact .notANumber
  | infinity s =>
      cases h' with
      | notANumber => exact .notANumber
      | infinity t => exact infinity s t
      | zero t t' => exact .notANumber
      | finite t n f hn => exact infinity s t
  | zero s s' =>
      cases h' with
      | notANumber => exact .notANumber
      | infinity t => exact .notANumber
      | zero t t' => exact .zero _ _
      | finite t n f hn => exact .zero _ _
  | finite s m e hm =>
      cases h' with
      | notANumber => exact .notANumber
      | infinity t => exact infinity s t
      | zero t t' => exact .zero _ _
      | finite t n f hn =>
          show Turned (o ^^ p) (roundWithAccuracy .binary64 (s * t) (m * n) (e + f) .exact)
            (roundWithAccuracy .binary64 (turn o s * turn p t) (m * n) (e + f) .exact)
          rw [← turn_mul]
          exact turned_round _ _ _ _ _

/-- The sign of a divisor matters when it is zero, and then alone. -/
theorem turned_div (hw : ∀ t, w ≠ .zero t) (h : Turned o u v) (h' : Turned false w x) :
    Turned o (UnpackedFloat.div .binary64 u w) (UnpackedFloat.div .binary64 v x) := by
  have infinity (s t : Sign) : Turned o (.infinity (s / t)) (.infinity (turn o s / t)) := by
    rw [← turn_div]
    exact .infinity (s / t)
  cases h' with
  | zero t t' => exact absurd rfl (hw t)
  | notANumber => cases h <;> exact .notANumber
  | infinity t =>
      cases h with
      | notANumber => exact .notANumber
      | infinity s => exact .notANumber
      | zero s s' => exact .zero _ _
      | finite s m e hm => exact .zero _ _
  | finite t n f hn =>
      cases h with
      | notANumber => exact .notANumber
      | infinity s => exact infinity s t
      | zero s s' => exact .zero _ _
      | finite s m e hm =>
          show Turned o (roundWithAccuracy .binary64 (s / t) _ _ _)
            (roundWithAccuracy .binary64 (turn o s / t) _ _ _)
          rw [← turn_div]
          exact turned_round _ _ _ _ _

theorem turned_abs (h : Turned o u v) : Turned false u.abs v.abs := by
  cases h with
  | notANumber => exact .notANumber
  | infinity s => exact .infinity .positive
  | zero s t => exact .zero _ _
  | finite s m e hm => exact .finite .positive m e hm

theorem compare_turned (h : Turned false u v) (h' : Turned false w x) :
    u.compare w = v.compare x := by
  cases h with
  | notANumber => rfl
  | infinity s => cases s <;> cases h' <;> rfl
  | zero s s' =>
      cases h' with
      | finite t n f hn => cases t <;> rfl
      | infinity t => cases t <;> rfl
      | _ => rfl
  | finite s m e hm => cases s <;> cases h' <;> rfl

/-! ### The doubles -/

/-- The sign of a double is packed by itself. -/
theorem turned_packComponents (o : Bool) (s : Sign) (b : BitVec 11) (m : BitVec 52) :
    Turned o (UnpackedFloat.unpack .binary64 (packComponents .binary64 s b m))
      (UnpackedFloat.unpack .binary64 (packComponents .binary64 (turn o s) b m)) := by
  simp only [UnpackedFloat.unpack, unpackMantissa_packComponents, unpackExponent_packComponents,
    unpackSign_packComponents, Sign.ofBitVec_toBitVec]
  split
  · split
    · exact .infinity s
    · exact .notANumber
  · split
    · split
      · exact .zero _ _
      · exact .finite s _ _ _
    · exact .finite s _ _ _

/-- **Packing keeps what is opposite.** -/
theorem turned_pack (h : Turned o u v) :
    Turned o (Float.Model.pack u).unpack (Float.Model.pack v).unpack := by
  show Turned o (UnpackedFloat.unpack .binary64 (UnpackedFloat.pack .binary64 u))
    (UnpackedFloat.unpack .binary64 (UnpackedFloat.pack .binary64 v))
  cases h with
  | notANumber => exact .notANumber
  | infinity s => exact turned_packComponents o s _ _
  | zero s t => cases s <;> cases t <;> exact .zero _ _
  | finite s m e hm =>
      simp only [UnpackedFloat.pack]
      split
      · exact turned_packComponents o s _ _
      · split
        · exact turned_packComponents o s _ _
        · exact turned_packComponents o s _ _

/-- A number that does not lie below one above zero is not zero. -/
theorem ne_zero_of_not_lt {c least : Float} (hleast : (0.0 : Float) < least) (h : ¬ c < least)
    (t : Sign) : c.toModel.unpack ≠ .zero t := by
  intro hc
  rw [lt_iff] at hleast h
  rw [hc] at h
  refine h (Eq.trans ?_ hleast)
  exact compare_turned (.zero _ _) (turned_refl _)

instance : OppositeNumbers Float where
  Opposite o a b := Turned o a.toModel.unpack b.toModel.unpack
  refl _ := turned_refl _
  neg a := by
    rw [unpack_neg]
    exact turned_neg _
  zero := .zero _ _
  symm h := h.symm
  add h h' := turned_pack (turned_add h h')
  sub h h' := turned_pack (turned_sub h h')
  mul h h' := turned_pack (turned_mul h h')
  div hleast hc h h' := turned_pack (turned_div (ne_zero_of_not_lt hleast hc) h h')
  abs h := turned_pack (turned_abs h)
  lt_iff h h' := by rw [lt_iff, lt_iff, compare_turned h h']

end Binary64

end FractalRender
