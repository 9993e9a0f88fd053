import Mathlib
import FractalRender.Kernel.Dynamical
import FractalRender.Kernel.EscapeTime
import FractalRender.Proofs.Scalar.Opposite

/-!
# Kernels — mirror images

Most kernels have the same value at a point and at its mirror image in the real axis.  Their maps
send mirror images to mirror images and the rules by which they stop do not tell them apart, so
two orbits that start as mirror images of each other stay so, and stop together.  That is all that
is shown of each kernel; why it follows from one step to the next is said once, for all of them.

* `stopIndex_congr`: orbits stay related when each step keeps the relation.
* `Mirrored`: mirror images, as far as arithmetic can tell; `Mirrored.mul`, `Mirrored.div?` and the
  lemmas with them say that the operations on points keep them.
* `MirrorSymmetric`: the kernels with that symmetry; `mirrorSymmetric_of_opposite` has it for all
  numbers that arithmetic treats like their opposites, `mirror_symmetric` for exact numbers and for
  doubles.
-/

namespace FractalRender

open OppositeNumbers

/-! ### Orbits that stay related -/

/-- **Related orbits stop together** when each step keeps the relation. -/
theorem stopIndex_congr {σ τ : Type} {f : σ → Option σ} {g : τ → Option τ} {R : σ → τ → Prop}
    (step : ∀ s t, R s t → Option.Rel R (f s) (g t)) (n : Nat) {s : σ} {t : τ} (start : R s t) :
    stopIndex f n s = stopIndex g n t := by
  induction n generalizing s t with
  | zero => rfl
  | succ n ih =>
      have next := step s t start
      generalize hf : f s = a, hg : g t = b at next
      cases next with
      | none => rw [stopIndex_succ_of_none n hf, stopIndex_succ_of_none n hg]
      | some related =>
          rw [stopIndex_succ_of_some n hf, stopIndex_succ_of_some n hg, ih related]

variable {α : Type} [Scalar α]

theorem stopTime_congr {σ τ : Type} {f : σ → Option σ} {g : τ → Option τ} {R : σ → τ → Prop}
    (step : ∀ s t, R s t → Option.Rel R (f s) (g t)) (cap : UInt32) {s : σ} {t : τ}
    (start : R s t) : (Orbit.stopTime ⟨σ, f, s⟩ cap : α) = Orbit.stopTime ⟨τ, g, t⟩ cap :=
  congrArg Scalar.ofNat (stopIndex_congr step cap.toNat start)

/-- The image of a point in the real axis. -/
def Complex.conj (z : Complex α) : Complex α := ⟨z.re, -z.im⟩

/-! ### Mirror images -/

variable [OppositeNumbers α]

/-- The points are mirror images of each other in the real axis, up to the signs of zeros. -/
structure Mirrored (z w : Complex α) : Prop where
  re : Opposite false z.re w.re
  im : Opposite true z.im w.im

theorem mirrored_conj (z : Complex α) : Mirrored z z.conj := ⟨refl _, neg _⟩

/-- A point of the real axis is its own image. -/
theorem mirrored_real (a : α) : Mirrored ⟨a, 0.0⟩ ⟨a, 0.0⟩ := ⟨refl a, zero⟩

theorem mirrored_one : Mirrored (Complex.one : Complex α) .one := mirrored_real 1.0

namespace Mirrored

variable {z w u v : Complex α}

theorem symm (h : Mirrored z w) : Mirrored w z :=
  ⟨OppositeNumbers.symm h.re, OppositeNumbers.symm h.im⟩

theorem add (h : Mirrored z w) (h' : Mirrored u v) : Mirrored (z.add u) (w.add v) :=
  ⟨OppositeNumbers.add h.re h'.re, OppositeNumbers.add h.im h'.im⟩

theorem sub (h : Mirrored z w) (h' : Mirrored u v) : Mirrored (z.sub u) (w.sub v) :=
  ⟨OppositeNumbers.sub h.re h'.re, OppositeNumbers.sub h.im h'.im⟩

theorem mul (h : Mirrored z w) (h' : Mirrored u v) : Mirrored (z.mul u) (w.mul v) :=
  ⟨OppositeNumbers.sub (OppositeNumbers.mul h.re h'.re) (OppositeNumbers.mul h.im h'.im),
    OppositeNumbers.add (OppositeNumbers.mul h.re h'.im) (OppositeNumbers.mul h.im h'.re)⟩

theorem scale (h : Mirrored z w) (k : α) : Mirrored (z.scale k) (w.scale k) :=
  ⟨OppositeNumbers.mul h.re (refl k), OppositeNumbers.mul h.im (refl k)⟩

theorem square (h : Mirrored z w) : Mirrored z.square w.square :=
  ⟨OppositeNumbers.sub (OppositeNumbers.mul h.re h.re) (OppositeNumbers.mul h.im h.im),
    OppositeNumbers.mul (OppositeNumbers.mul (refl 2.0) h.re) h.im⟩

theorem normSq (h : Mirrored z w) : Opposite false z.normSq w.normSq :=
  OppositeNumbers.add (OppositeNumbers.mul h.re h.re) (OppositeNumbers.mul h.im h.im)

/-- Quotients of mirror images are mirror images, or there are none. -/
theorem div? (h : Mirrored z w) (h' : Mirrored u v) {least : α} (positive : (0.0 : α) < least) :
    Option.Rel Mirrored (z.div? u least) (w.div? v least) := by
  have small : u.normSq < least ↔ v.normSq < least := lt_iff h'.normSq (refl least)
  by_cases hu : u.normSq < least
  · rw [Complex.div?, Complex.div?, if_pos hu, if_pos (small.mp hu)]
    exact .none
  · rw [Complex.div?, Complex.div?, if_neg hu, if_neg (mt small.mpr hu)]
    have re : Opposite false (z.re * u.re + z.im * u.im) (w.re * v.re + w.im * v.im) :=
      OppositeNumbers.add (OppositeNumbers.mul h.re h'.re) (OppositeNumbers.mul h.im h'.im)
    have im : Opposite true (z.im * u.re - z.re * u.im) (w.im * v.re - w.re * v.im) :=
      OppositeNumbers.sub (OppositeNumbers.mul h.im h'.re) (OppositeNumbers.mul h.re h'.im)
    exact .some ⟨div positive hu re h'.normSq, div positive hu im h'.normSq⟩

/-- A comparison with the size of a point does not tell mirror images apart. -/
theorem lt_normSq_iff (h : Mirrored z w) (a : α) : a < z.normSq ↔ a < w.normSq :=
  lt_iff (refl a) h.normSq

/-- Mirror images arrive together at mirror images. -/
theorem hasArrived_eq (h : Mirrored z w) (h' : Mirrored u v) :
    Kernel.hasArrived z u = Kernel.hasArrived w v :=
  decide_eq_decide.mpr (lt_iff (h.sub h').normSq (refl _))

end Mirrored

omit [OppositeNumbers α] in
/-- What is done to related results leaves related results. -/
theorem rel_map {σ τ : Type} {R : σ → σ → Prop} {S : τ → τ → Prop} {f g : σ → τ}
    (h : ∀ s t, R s t → S (f s) (g t)) {a b : Option σ} (hab : Option.Rel R a b) :
    Option.Rel S (a.map f) (b.map g) := by
  cases hab with
  | none => exact .none
  | some related => exact .some (h _ _ related)

/-! ### Kernels -/

namespace Kernel

/-- Orbits of mirror images escape together when their maps send mirror images to mirror images. -/
theorem escapeTime_congr {f g : Complex α → Complex α}
    (step : ∀ z w, Mirrored z w → Mirrored (f z) (g w)) (cap : UInt32) {z w : Complex α}
    (start : Mirrored z w) :
    ((Orbit.escaping f z).stopTime cap : α) = (Orbit.escaping g w).stopTime cap := by
  refine stopTime_congr (fun s t h => ?_) cap start
  simp only [h.lt_normSq_iff]
  split
  · exact .none
  · exact .some (step s t h)

variable {c d : Complex α} (h : Mirrored c d) (cap : UInt32)

include h

theorem mandelbrot_mirrored : mandelbrot c cap = mandelbrot d cap :=
  escapeTime_congr (fun _ _ hz => hz.square.add h) cap (mirrored_real 0.0)

theorem julia_mirrored {z w : Complex α} (hz : Mirrored z w) : julia z c cap = julia w d cap :=
  escapeTime_congr (fun _ _ hz => hz.square.add h) cap hz

theorem tricorn_mirrored : tricorn c cap = tricorn d cap := by
  refine escapeTime_congr (fun z w hz => ⟨?_, ?_⟩) cap (mirrored_real 0.0)
  · exact add (sub (mul hz.re hz.re) (mul hz.im hz.im)) h.re
  · exact add (mul (mul (refl _) hz.re) hz.im) h.im

theorem celtic_mirrored : celtic c cap = celtic d cap := by
  refine escapeTime_congr (fun z w hz => ⟨?_, ?_⟩) cap (mirrored_real 0.0)
  · have re : Opposite false (z.re * z.re - z.im * z.im) (w.re * w.re - w.im * w.im) :=
      sub (mul hz.re hz.re) (mul hz.im hz.im)
    exact add (OppositeNumbers.abs re) h.re
  · exact add (mul (mul (refl _) hz.re) hz.im) h.im

/-- Here the folded parts are the same, and only the part that is not folded changes its sign. -/
theorem perpendicularBurningShip_mirrored :
    perpendicularBurningShip c cap = perpendicularBurningShip d cap := by
  refine escapeTime_congr (fun z w hz => ?_) cap (mirrored_real 0.0)
  have hx := OppositeNumbers.abs hz.re
  have hy := OppositeNumbers.abs hz.im
  exact ⟨add (sub (mul hx hx) (mul hy hy)) h.re, add (mul (mul (refl _) hx) hz.im) h.im⟩

theorem lambda_mirrored : lambda c cap = lambda d cap :=
  escapeTime_congr (fun _ _ hz => (h.mul hz).mul (mirrored_one.sub hz)) cap
    (mirrored_real 0.5)

/-- Here the state before is kept too, and both are mirror images. -/
theorem phoenix_mirrored : phoenix c cap = phoenix d cap := by
  refine stopTime_congr (R := fun s t => Mirrored s.1 t.1 ∧ Mirrored s.2 t.2)
    (fun s t hst => ?_) cap ⟨mirrored_real 0.0, mirrored_real 0.0⟩
  obtain ⟨hz, before⟩ := hst
  simp only [hz.lt_normSq_iff]
  split
  · exact .none
  · refine .some ⟨⟨?_, ?_⟩, hz⟩
    · exact add (add (sub (mul hz.re hz.re) (mul hz.im hz.im)) h.re) (mul (refl _) before.re)
    · exact add (add (mul (mul (refl _) hz.re) hz.im) h.im) (mul (refl _) before.im)

/-- The two roots off the real axis are images of each other. -/
theorem any_hasArrived_mirrored :
    cubeRootsOfUnity.any (hasArrived c) = cubeRootsOfUnity.any (hasArrived d) := by
  have one := h.hasArrived_eq (mirrored_real 1.0)
  have roots : Mirrored (α := α) ⟨-0.5, halfSqrtThree⟩ ⟨-0.5, -halfSqrtThree⟩ := ⟨refl _, neg _⟩
  have upper := h.hasArrived_eq roots
  have lower := h.hasArrived_eq roots.symm
  simp only [cubeRootsOfUnity, List.any_cons, List.any_nil, one, upper, lower, Bool.or_false]
  rw [Bool.or_comm (hasArrived d _) (hasArrived d _)]

theorem newton_mirrored (positive : (0.0 : α) < newtonRadius) : newton c cap = newton d cap := by
  refine stopTime_congr (fun z w hz => ?_) cap h
  rw [any_hasArrived_mirrored hz]
  split
  · exact .none
  · exact rel_map (fun _ _ hq => hz.sub hq)
      (((hz.square.mul hz).sub mirrored_one).div? (hz.square.scale 3.0) positive)

omit h in
/-- Mirror images of magnet orbits stop together. -/
theorem magnetStops_mirrored {z w : Complex α} (hz : Mirrored z w) :
    magnetStops z = magnetStops w := by
  rw [magnetStops, magnetStops, hz.hasArrived_eq mirrored_one]
  simp only [hz.lt_normSq_iff]

theorem magnet1_mirrored (positive : (0.0 : α) < magnetLeast) : magnet1 c cap = magnet1 d cap := by
  have h1 := h.sub (mirrored_real 1.0)
  have h2 := h.sub (mirrored_real 2.0)
  refine stopTime_congr (fun z w hz => ?_) cap (mirrored_real 0.0)
  rw [magnetStops_mirrored hz]
  split
  · exact .none
  · exact rel_map (fun _ _ hq => hq.square)
      ((hz.square.add h1).div? ((hz.scale 2.0).add h2) positive)

theorem magnet2_mirrored (positive : (0.0 : α) < magnetLeast) : magnet2 c cap = magnet2 d cap := by
  have h1 := h.sub (mirrored_real 1.0)
  have h2 := h.sub (mirrored_real 2.0)
  have product := h1.mul h2
  refine stopTime_congr (fun z w hz => ?_) cap (mirrored_real 0.0)
  rw [magnetStops_mirrored hz]
  split
  · exact .none
  · have num := ((hz.square.mul hz).add ((h1.scale 3.0).mul hz)).add product
    have den := (((hz.square.scale 3.0).add ((h2.scale 3.0).mul hz)).add product).add
      mirrored_one
    exact rel_map (fun _ _ hq => hq.square) (num.div? den positive)

end Kernel

/-! ### The symmetric kernels -/

omit [OppositeNumbers α] in
/-- The kernel has the same value at a point and at its image. -/
def Kernel.SameInMirror (kernel : Complex α → UInt32 → α) : Prop :=
  ∀ c cap, kernel c.conj cap = kernel c cap

variable (α) in
omit [OppositeNumbers α] in
/-- The kernels that have the same value at a point and at its image in the real axis; that of a
Julia set has it when the constant is exchanged for its image too. -/
structure MirrorSymmetric : Prop where
  mandelbrot : Kernel.SameInMirror (Kernel.mandelbrot (α := α))
  tricorn : Kernel.SameInMirror (Kernel.tricorn (α := α))
  celtic : Kernel.SameInMirror (Kernel.celtic (α := α))
  perpendicularBurningShip : Kernel.SameInMirror (Kernel.perpendicularBurningShip (α := α))
  newton : Kernel.SameInMirror (Kernel.newton (α := α))
  phoenix : Kernel.SameInMirror (Kernel.phoenix (α := α))
  magnet1 : Kernel.SameInMirror (Kernel.magnet1 (α := α))
  magnet2 : Kernel.SameInMirror (Kernel.magnet2 (α := α))
  lambda : Kernel.SameInMirror (Kernel.lambda (α := α))
  julia : ∀ (z c : Complex α) cap, Kernel.julia z.conj c.conj cap = Kernel.julia z c cap

/-- **Numbers that arithmetic treats like their opposites** have symmetric kernels. -/
theorem mirrorSymmetric_of_opposite (radius : (0.0 : α) < Kernel.newtonRadius)
    (least : (0.0 : α) < Kernel.magnetLeast) : MirrorSymmetric α where
  mandelbrot c cap := (Kernel.mandelbrot_mirrored (mirrored_conj c) cap).symm
  tricorn c cap := (Kernel.tricorn_mirrored (mirrored_conj c) cap).symm
  celtic c cap := (Kernel.celtic_mirrored (mirrored_conj c) cap).symm
  perpendicularBurningShip c cap :=
    (Kernel.perpendicularBurningShip_mirrored (mirrored_conj c) cap).symm
  newton c cap := (Kernel.newton_mirrored (mirrored_conj c) cap radius).symm
  phoenix c cap := (Kernel.phoenix_mirrored (mirrored_conj c) cap).symm
  magnet1 c cap := (Kernel.magnet1_mirrored (mirrored_conj c) cap least).symm
  magnet2 c cap := (Kernel.magnet2_mirrored (mirrored_conj c) cap least).symm
  lambda c cap := (Kernel.lambda_mirrored (mirrored_conj c) cap).symm
  julia z c cap := (Kernel.julia_mirrored (mirrored_conj c) cap (mirrored_conj z)).symm

/-- **Mirror symmetry of the kernels.**  In exact arithmetic, and over doubles as they are rounded,
nine kernels have the same value at every point and at its image in the real axis, under every cap,
and that of a Julia set has it for a constant and its image. -/
theorem mirror_symmetric : MirrorSymmetric ℚ ∧ MirrorSymmetric Float := by
  refine ⟨mirrorSymmetric_of_opposite ?_ ?_, mirrorSymmetric_of_opposite ?_ ?_⟩
  · norm_num [Kernel.newtonRadius]
  · norm_num [Kernel.magnetLeast]
  · decide +kernel
  · decide +kernel

/-- The burning ship folds what the others turn, and is not its own image. -/
example :
    Kernel.burningShip (Complex.conj ⟨0, 1⟩) 5 ≠ Kernel.burningShip (⟨0, 1⟩ : Complex ℚ) 5 := by
  decide +kernel

end FractalRender
