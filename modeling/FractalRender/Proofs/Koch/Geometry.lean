import Mathlib
import FractalRender.Proofs.Koch.Turtle
import FractalRender.Proofs.Scalar.Exact

/-!
# The Koch curve — exact geometry

A turtle that turns by sixths of a full turn looks into one of six directions, and where a word
takes it is the sum of the directions of its steps.  The directions are the powers of a number `ω`
with `ω ^ 2 = ω - 1`, a primitive sixth root of unity.  What a word moves the turtle by is then
compatible with replacing: a word without net turn that takes the turtle to `z` makes every word,
replaced by it, `z` times as long (`displacement_substitute`).  So the word of depth `d` takes the
turtle `3 ^ d` steps straight ahead.

* `turn_generate`, `turn_prefix_generate`: the net turn of a word and the turns on the way.
* `displacement_append`, `displacement_substitute`, `displacement_generate`: displacements.
* `sum_stepsAlong`: a displacement from the numbers of steps in each of the six directions.
* `place_read`: over the reals, with exact angles, the turtle moves by the displacement of the word.
* `position_read_generate`, `back?_polyline`: where a curve ends.
* `closes_up`: the geometry of the words of all depths, and the end of the curve.
-/

namespace FractalRender.Koch

/-! ### Turns -/

/-- The net turn of a word, in sixths of a full turn. -/
def turn (w : List Char) : ℤ := w.count '+' - w.count '-'

@[simp] theorem turn_nil : turn [] = 0 := rfl

theorem turn_forward : turn ['F'] = 0 := rfl

theorem turn_plus : turn ['+'] = 1 := rfl

theorem turn_minus : turn ['-'] = -1 := rfl

theorem turn_append (u v : List Char) : turn (u ++ v) = turn u + turn v := by
  simp only [turn, List.count_append]
  omega

theorem turn_cons (c : Char) (w : List Char) : turn (c :: w) = turn [c] + turn w :=
  turn_append [c] w

/-- Replacing every `F` by a word without net turn changes no turn. -/
theorem turn_substitute {u : List Char} (hu : turn u = 0) (w : List Char) :
    turn (substitute u w) = turn w := by
  simp only [turn, count_substitute] at hu ⊢
  have : u.count '+' = u.count '-' := by omega
  simp [this]

theorem turn_production : turn production = 0 := rfl

theorem turn_generate (d : Nat) : turn (generate d) = 0 := by
  rw [turn, count_turns_generate, sub_self]

/-- A prefix of a word after replacing is a prefix of it before, replaced, and a part of what is
put in next. -/
theorem exists_of_prefix_substitute {u w q : List Char} (h : q <+: substitute u w) :
    ∃ p r, q = substitute u p ++ r ∧ p <+: w ∧ r <+: u := by
  induction w generalizing q with
  | nil =>
      obtain rfl := List.prefix_nil.mp h
      exact ⟨[], [], rfl, List.nil_prefix, List.nil_prefix⟩
  | cons c w ih =>
      obtain ⟨rest, hrest⟩ := h
      rw [substitute_cons] at hrest
      rcases List.append_eq_append_iff.mp hrest with ⟨left, hleft, -⟩ | ⟨q', rfl, hq'⟩
      · -- the prefix ends within what stands for the first character
        by_cases hc : c = 'F'
        · rw [if_pos hc] at hleft
          exact ⟨[], q, rfl, List.nil_prefix, left, hleft.symm⟩
        · rw [if_neg hc] at hleft
          cases q with
          | nil => exact ⟨[], [], rfl, List.nil_prefix, List.nil_prefix⟩
          | cons a q =>
              obtain ⟨rfl, hq⟩ := List.cons_eq_cons.mp hleft
              obtain ⟨rfl, -⟩ := List.nil_eq_append_iff.mp hq
              exact ⟨[c], [], by simp [substitute, hc], ⟨w, rfl⟩, List.nil_prefix⟩
      · obtain ⟨p, r, rfl, hp, hr⟩ := ih ⟨rest, hq'.symm⟩
        refine ⟨c :: p, r, ?_, List.cons_prefix_cons.mpr ⟨rfl, hp⟩, hr⟩
        rw [substitute_cons, List.append_assoc]

/-- **The turns on the way**: one level of replacing adds at most one turn to either side. -/
theorem turn_prefix_generate (d : Nat) {q : List Char} (h : q <+: generate d) :
    -(d : ℤ) ≤ turn q ∧ turn q ≤ d := by
  induction d generalizing q with
  | zero =>
      have : ∀ q ∈ (generate 0).inits, turn q = 0 := by simp [generate, turn]
      simp [this q ((List.mem_inits _ _).mpr h)]
  | succ d ih =>
      obtain ⟨p, r, rfl, hp, hr⟩ := exists_of_prefix_substitute h
      have inner : ∀ r ∈ production.inits, -1 ≤ turn r ∧ turn r ≤ 1 := by
        simp [production, turn]
      have hp := ih hp
      have hr := inner r ((List.mem_inits _ _).mpr hr)
      rw [turn_append, turn_substitute turn_production]
      push_cast
      omega

/-! ### Displacements -/

/-- The turns at which a word goes forward, from the turn `h` on. -/
def headings : ℤ → List Char → List ℤ
  | _, [] => []
  | h, c :: w => if c = 'F' then h :: headings h w else headings (h + turn [c]) w

theorem headings_add (h k : ℤ) (w : List Char) :
    headings (h + k) w = (headings k w).map (h + ·) := by
  induction w generalizing k with
  | nil => rfl
  | cons c w ih =>
      rw [headings, headings]
      split
      · rw [ih, List.map_cons]
      · rw [add_assoc, ih]

theorem headings_append (h : ℤ) (u v : List Char) :
    headings h (u ++ v) = headings h u ++ headings (h + turn u) v := by
  induction u generalizing h with
  | nil => simp [headings]
  | cons c u ih =>
      rw [List.cons_append, headings, headings, turn_cons c u, ← add_assoc]
      split
      · next hc => rw [ih, hc, turn_forward, add_zero, List.cons_append]
      · rw [ih]

variable {R : Type*} [CommRing R]

/-- What a word moves the turtle by, when a step at the turn `h` is the power `ω ^ h`. -/
def displacement (ω : Rˣ) (h : ℤ) (w : List Char) : R :=
  ((headings h w).map fun k => ((ω ^ k : Rˣ) : R)).sum

/-- A turtle that is turned at the start moves along the turned way. -/
theorem displacement_eq_mul (ω : Rˣ) (h : ℤ) (w : List Char) :
    displacement ω h w = ((ω ^ h : Rˣ) : R) * displacement ω 0 w := by
  have turned (k : ℤ) : ((ω ^ (h + k) : Rˣ) : R) = (ω ^ h : Rˣ) * (ω ^ k : Rˣ) := by
    rw [zpow_add, Units.val_mul]
  rw [displacement, displacement, ← List.sum_map_mul_left, ← add_zero h, headings_add,
    List.map_map, add_zero]
  exact congrArg List.sum (List.map_congr_left fun k _ => turned k)

theorem displacement_append (ω : Rˣ) (u v : List Char) :
    displacement ω 0 (u ++ v) =
      displacement ω 0 u + ((ω ^ turn u : Rˣ) : R) * displacement ω 0 v := by
  rw [← displacement_eq_mul, displacement, headings_append, List.map_append, List.sum_append,
    zero_add]
  rfl

theorem displacement_cons (ω : Rˣ) (h : ℤ) (c : Char) (w : List Char) :
    displacement ω h (c :: w) =
      (if c = 'F' then ((ω ^ h : Rˣ) : R) else 0) + displacement ω (h + turn [c]) w := by
  rw [displacement, headings]
  split
  · next hc =>
      rw [hc, turn_forward, add_zero, List.map_cons, List.sum_cons]
      rfl
  · rw [zero_add]
    rfl

/-- **Displacements are compatible with replacing.**  A word without net turn that takes the turtle
to `z` makes the way of every word, replaced by it, `z` times as long. -/
theorem displacement_substitute (ω : Rˣ) {u : List Char} (hu : turn u = 0) (w : List Char) :
    displacement ω 0 (substitute u w) = displacement ω 0 u * displacement ω 0 w := by
  induction w with
  | nil => simp [substitute, displacement, headings]
  | cons c w ih =>
      rw [substitute_cons, displacement_append, ih, displacement_cons, zero_add,
        displacement_eq_mul ω (turn [c])]
      by_cases hc : c = 'F'
      · rw [if_pos hc, if_pos hc, hu, hc, turn_forward, zpow_zero, Units.val_one]
        ring
      · have stays : displacement ω 0 [c] = 0 := by
          simp [displacement, headings, hc]
        rw [if_neg hc, if_neg hc, stays]
        ring

/-- One level of replacing makes every step three steps long. -/
theorem displacement_production {ω : Rˣ} (hω : (ω : R) ^ 2 = ω - 1) :
    displacement ω 0 production = 3 := by
  have back : ((ω⁻¹ : Rˣ) : R) = 1 - ω := by
    refine Units.inv_eq_of_mul_eq_one_right ?_
    linear_combination -hω
  have ways : displacement ω 0 production = 1 + (ω + (((ω⁻¹ : Rˣ) : R) + (1 + 0))) := by
    simp [displacement, production, headings, turn]
  rw [ways, back]
  ring

/-- **The word of depth `d` takes the turtle `3 ^ d` steps straight ahead.** -/
theorem displacement_generate {ω : Rˣ} (hω : (ω : R) ^ 2 = ω - 1) (d : Nat) :
    displacement ω 0 (generate d) = 3 ^ d := by
  induction d with
  | zero => simp [displacement, generate, headings]
  | succ d ih =>
      rw [generate, displacement_substitute ω turn_production, displacement_production hω, ih,
        pow_succ, mul_comm]

/-! ### Six directions -/

/-- How many steps a word makes in the direction `k`: those at turns equal to `k` modulo 6. -/
def stepsAlong (k : ℕ) (w : List Char) : ℕ := (headings 0 w).countP fun h : ℤ => h % 6 = k

/-- Six turns are a full one. -/
theorem pow_six {ω : Rˣ} (hω : (ω : R) ^ 2 = ω - 1) : ω ^ 6 = 1 := by
  refine Units.ext ?_
  rw [Units.val_pow_eq_pow_val, Units.val_one]
  linear_combination ((ω : R) ^ 4 + (ω : R) ^ 3 - ω - 1) * hω

/-- A step goes in one of the six directions. -/
theorem zpow_eq_sum {ω : Rˣ} (hω : (ω : R) ^ 2 = ω - 1) (h : ℤ) :
    ((ω ^ h : Rˣ) : R) = ∑ k ∈ Finset.range 6, if h % 6 = (k : ℤ) then (ω : R) ^ k else 0 := by
  obtain ⟨k, hk⟩ := Int.eq_ofNat_of_zero_le (Int.emod_nonneg h (by decide : (6 : ℤ) ≠ 0))
  have below : k < 6 := by omega
  rw [zpow_eq_zpow_emod h (n := 6) (pow_six hω), hk, zpow_natCast, Units.val_pow_eq_pow_val]
  simp [Nat.cast_inj, below]

/-- **A displacement** from the numbers of steps in each of the six directions. -/
theorem sum_stepsAlong {ω : Rˣ} (hω : (ω : R) ^ 2 = ω - 1) (w : List Char) :
    ∑ k ∈ Finset.range 6, (stepsAlong k w : R) * (ω : R) ^ k = displacement ω 0 w := by
  rw [displacement]
  simp only [stepsAlong]
  induction headings 0 w with
  | nil => simp
  | cons h hs ih =>
      rw [List.map_cons, List.sum_cons, ← ih, zpow_eq_sum hω, ← Finset.sum_add_distrib]
      refine Finset.sum_congr rfl fun k _ => ?_
      rw [List.countP_cons]
      by_cases hk : h % 6 = (k : ℤ)
      · simp only [hk, decide_true, if_true]
        push_cast
        ring
      · simp [hk]

/-! ### The exact curve -/

/-- The elementary functions of the reals, with angles measured so that `thirdPi` is exactly a third
of a half turn. -/
noncomputable scoped instance exactAngles : Elementary ℝ where
  sqrt := Real.sqrt
  pow a b := a ^ b
  atan2 y x := (⟨x, y⟩ : ℂ).arg * (thirdPi / (Real.pi / 3))
  cos h := Real.cos (h / thirdPi * (Real.pi / 3))
  sin h := Real.sin (h / thirdPi * (Real.pi / 3))

/-- The direction after one turn, as a point of the plane. -/
noncomputable def sixth : ℂˣ :=
  Units.mk0 (Complex.exp (Real.pi / 3 * Complex.I)) (Complex.exp_ne_zero _)

/-- The direction after `h` turns. -/
theorem sixth_zpow (h : ℤ) : ((sixth ^ h : ℂˣ) : ℂ) =
    ⟨Real.cos (h * (Real.pi / 3)), Real.sin (h * (Real.pi / 3))⟩ := by
  have angle : (h : ℂ) * (Real.pi / 3 * Complex.I) =
      ((h * (Real.pi / 3) : ℝ) : ℂ) * Complex.I := by
    push_cast
    ring
  rw [Units.val_zpow_eq_zpow_val, sixth, Units.val_mk0, ← Complex.exp_int_mul, angle]
  exact Complex.ext (Complex.exp_ofReal_mul_I_re _) (Complex.exp_ofReal_mul_I_im _)

theorem sixth_sq : (sixth : ℂ) ^ 2 = sixth - 1 := by
  have hsixth : (sixth : ℂ) = ⟨1 / 2, √3 / 2⟩ := by
    rw [← zpow_one sixth, sixth_zpow, Int.cast_one, one_mul, Real.cos_pi_div_three,
      Real.sin_pi_div_three]
  have root : √3 * √3 = 3 := Real.mul_self_sqrt (by norm_num)
  rw [hsixth, pow_two]
  refine Complex.ext ?_ ?_
  · simp only [Complex.mul_re, Complex.sub_re, Complex.one_re]
    linarith
  · simp only [Complex.mul_im, Complex.sub_im, Complex.one_im]
    ring

/-- A position as a point of the plane. -/
def place (p : Point ℝ) : ℂ := ⟨p.x, p.y⟩

theorem heading_obey {length : ℝ} {t : Turtle ℝ} {h : ℤ} (ht : t.heading = h * thirdPi) (c : Char) :
    (t.obey length c).heading = (h + turn [c] : ℤ) * thirdPi := by
  rw [Turtle.obey]
  split
  · next hc => rw [hc, turn_forward, add_zero, ht]
  · split
    · next hc =>
        rw [hc, turn_plus, ht]
        push_cast
        ring
    · split
      · next hc =>
          rw [hc, turn_minus, ht]
          push_cast
          ring
      · next hplus hminus =>
          rw [show turn [c] = 0 by simp [turn, hplus, hminus], add_zero, ht]

theorem place_obey {length : ℝ} {t : Turtle ℝ} {h : ℤ} (ht : t.heading = h * thirdPi) (c : Char) :
    place (t.obey length c).position = place t.position +
      length * (if c = 'F' then ((sixth ^ h : ℂˣ) : ℂ) else 0) := by
  by_cases hc : c = 'F'
  · have angle : t.heading / thirdPi * (Real.pi / 3) = h * (Real.pi / 3) := by
      rw [ht, mul_div_cancel_right₀]
      norm_num [thirdPi]
    rw [if_pos hc, sixth_zpow, Turtle.obey, if_pos hc, ← angle]
    exact Complex.ext (by simp [place, Elementary.cos]) (by simp [place, Elementary.sin])
  · rw [if_neg hc, mul_zero, add_zero, Turtle.position_obey hc]

/-- **The exact turtle** moves by the displacement of the word it reads, in steps of its length. -/
theorem place_read (length : ℝ) {t : Turtle ℝ} {h : ℤ} (ht : t.heading = h * thirdPi)
    (w : List Char) :
    place (t.read length w).position = place t.position + length * displacement sixth h w := by
  induction w generalizing t h with
  | nil => simp [Turtle.read, displacement, headings]
  | cons c w ih =>
      calc place (t.read length (c :: w)).position
          = place ((t.obey length c).read length w).position := rfl
        _ = place (t.obey length c).position +
              length * displacement sixth (h + turn [c]) w := ih (heading_obey ht c)
        _ = place t.position + length * displacement sixth h (c :: w) := by
              rw [place_obey ht, displacement_cons]
              ring

/-- A depth that fits a signed word is read as it is. -/
theorem segment_exact {d : UInt32} (hd : d.toNat < 2 ^ 31) (width : UInt32) :
    (segment d width : ℝ) = 0.8 * width.toNat / 3 ^ d.toNat := by
  have signed : d.toInt32.toInt = d.toNat := by
    show d.toInt32.toBitVec.toInt = d.toNat
    rw [UInt32.toBitVec_toInt32, BitVec.toInt_eq_toNat_of_lt]
    · rfl
    · show 2 * d.toNat < 2 ^ 32
      omega
  rw [segment, Scalar.powInt_exact, signed, zpow_natCast]
  norm_num [Scalar.ofNat]

/-- **The exact turtle at the end of the word of depth `d`** is `3 ^ d` steps to the right of its
start, at the same height. -/
theorem position_read_generate (d : Nat) (length : ℝ) (s : Surface) :
    ((start s).read length (generate d)).position =
      ⟨0.1 * s.width.toNat + 3 ^ d * length, 0.65 * s.height.toNat⟩ := by
  have ahead : (start s : Turtle ℝ).heading = (0 : ℤ) * thirdPi := by
    simp only [start, Int.cast_zero, zero_mul]
    norm_num
  have ends := place_read length ahead (generate d)
  have real : (length : ℂ) * 3 ^ d = ((3 ^ d * length : ℝ) : ℂ) := by
    push_cast
    ring
  rw [displacement_generate sixth_sq, real] at ends
  obtain ⟨hx, hy⟩ := Complex.ext_iff.mp ends
  rw [Complex.add_re, Complex.ofReal_re] at hx
  rw [Complex.add_im, Complex.ofReal_im, add_zero] at hy
  exact congrArg₂ Point.mk hx hy

/-- A curve ends where the turtle is after the word. -/
theorem back?_polyline (word : List Char) (depth : UInt32) (s : Surface) :
    (polyline word depth s : Array (Point ℝ)).back? =
      some ((start s).read (segment depth s.width) word).position := by
  rw [← Array.getLast?_toList, toList_polyline, Turtle.getLast_trail]

/-- The integers together with a primitive sixth root of unity `ω`, for which `ω ^ 2 = ω - 1`. -/
abbrev Sixfold := QuadraticAlgebra ℤ (-1) 1

namespace Sixfold

open QuadraticAlgebra (omega)

theorem omega_sq : (omega : Sixfold) ^ 2 = omega - 1 := by
  rw [pow_two]
  rfl

/-- `ω` with its inverse. -/
def root : Sixfoldˣ where
  val := omega
  inv := 1 - omega
  val_inv := by linear_combination -omega_sq
  inv_val := by linear_combination -omega_sq

end Sixfold

open QuadraticAlgebra (omega) in
/-- **The curves of all depths close up.**  The word of depth `d` has no net turn and on the way
never more than `d` turns to either side; its steps in the six directions add up to `3 ^ d` steps
straight ahead.  So with steps of a `3 ^ d`-th of four fifths of the width the exact turtle ends
four fifths of the width to the right of its start, at the same height; and these are the steps of
the curve, for every depth that fits a signed word. -/
theorem closes_up (d : Nat) :
    turn (generate d) = 0 ∧
    (∀ q, q <+: generate d → -(d : ℤ) ≤ turn q ∧ turn q ≤ d) ∧
    ∑ k ∈ Finset.range 6, (stepsAlong k (generate d) : Sixfold) * omega ^ k = 3 ^ d ∧
    (∀ s : Surface,
      ((start s).read (0.8 * s.width.toNat / 3 ^ d : ℝ) (generate d)).position =
        ⟨0.1 * s.width.toNat + 0.8 * s.width.toNat, 0.65 * s.height.toNat⟩) ∧
    (d < 2 ^ 31 → ∀ s : Surface,
      (polyline (generate d) (UInt32.ofNat d) s : Array (Point ℝ)).back? =
        some ⟨0.1 * s.width.toNat + 0.8 * s.width.toNat, 0.65 * s.height.toNat⟩) := by
  have ends (s : Surface) :
      ((start s).read (0.8 * s.width.toNat / 3 ^ d : ℝ) (generate d)).position =
        ⟨0.1 * s.width.toNat + 0.8 * s.width.toNat, 0.65 * s.height.toNat⟩ := by
    rw [position_read_generate, mul_div_cancel₀]
    positivity
  refine ⟨turn_generate d, fun q => turn_prefix_generate d, ?_, ends, fun hd s => ?_⟩
  · exact (sum_stepsAlong (ω := Sixfold.root) Sixfold.omega_sq (generate d)).trans
      (displacement_generate (ω := Sixfold.root) Sixfold.omega_sq d)
  · have depth : (UInt32.ofNat d).toNat = d := by
      refine UInt32.toNat_ofNat_of_lt' ?_
      simp only [UInt32.size]
      omega
    rw [back?_polyline, segment_exact (depth.symm ▸ hd), depth, ends]

/-- The curve of depth 3 on a surface of 1000 by 500 pixels ends at its right end. -/
theorem closes_up_depth_three :
    (3 < 2 ^ 31) ∧
    (polyline (generate 3) 3 ⟨1000, 500⟩ : Array (Point ℝ)).back? = some ⟨900, 325⟩ := by
  refine ⟨by decide, ((closes_up 3).2.2.2.2 (by decide) ⟨1000, 500⟩).trans ?_⟩
  have width : (1000 : UInt32).toNat = 1000 := rfl
  have height : (500 : UInt32).toNat = 500 := rfl
  norm_num [width, height]

end FractalRender.Koch
