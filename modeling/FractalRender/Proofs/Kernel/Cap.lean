import FractalRender.Proofs.Kernel.Orbits
import FractalRender.Proofs.Scalar.Count

/-!
# Kernels — raising the cap

Whether an orbit is left because it escapes, because it arrives somewhere or because there is nothing
to divide by, it is the same orbit under every cap.  So one that stops before a cap stops there under
every larger cap.

* `isStopTime_atPoint`: each kernel at each point is the stop time of one orbit.
* `count_of_raised_cap`: what the kernels return under two caps.
-/

namespace FractalRender

namespace Kernel

section

variable {α : Type} [Scalar α]

/-- The kernels with their other arguments given, as functions of the cap. -/
def atPoint [Elementary α] (z c : Complex α) (power : α) : List (UInt32 → α) :=
  [mandelbrot z, julia z c, burningShip z, tricorn z, celtic z, buffalo z,
    perpendicularBurningShip z, fun cap => multibrot z cap power, newton z, phoenix z, magnet1 z,
    magnet2 z, lambda z]

/-- The function is the stop time of one orbit, whatever the cap is. -/
def IsStopTime (kernel : UInt32 → α) : Prop := ∃ o : Orbit, kernel = o.stopTime

theorem isStopTime_atPoint [Elementary α] (z c : Complex α) (power : α) :
    ∀ kernel ∈ atPoint z c power, IsStopTime kernel := by
  simp only [atPoint, List.forall_mem_cons, List.not_mem_nil, false_implies, implies_true, and_true]
  and_intros
  all_goals exact ⟨_, rfl⟩

end

/-- **Raising the cap never changes a count.**  Under a cap `n` each kernel returns the double of a
count of at most `n`, so a number from 0 to the cap, and under a smaller cap the double of the same
count cut off there: a point that has escaped keeps its count under every larger cap. -/
theorem count_of_raised_cap (z c : Complex Float) (power : Float) :
    ∀ kernel ∈ atPoint z c power, ∀ m n : UInt32, m ≤ n → ∃ i ≤ n.toNat,
      kernel n = Binary64.ofNat i ∧ kernel m = Binary64.ofNat (min i m.toNat) ∧
      (0.0 ≤ kernel n ∧ kernel n ≤ Binary64.ofNat n.toNat ∧ (kernel n).isNaN = false) ∧
      (kernel m < Binary64.ofNat m.toNat → kernel n = kernel m) := by
  intro kernel hk m n hmn
  obtain ⟨⟨σ, advance, s⟩, rfl⟩ := isStopTime_atPoint z c power kernel hk
  have hle := stopIndex_le advance n.toNat s
  have hmin := stopIndex_eq_min advance (UInt32.le_iff_toNat_le.mp hmn) s
  have fits {i : Nat} (cap : UInt32) (hi : i ≤ cap.toNat) : i < 2 ^ 53 :=
    hi.trans_lt (cap.toNat_lt.trans (by decide))
  show ∃ i ≤ n.toNat, Binary64.ofNat (stopIndex advance n.toNat s) = Binary64.ofNat i ∧
    Binary64.ofNat (stopIndex advance m.toNat s) = Binary64.ofNat (min i m.toNat) ∧ _
  refine ⟨_, hle, rfl, congrArg Binary64.ofNat hmin, ⟨?_, ?_, ?_⟩, ?_⟩
  · exact (Binary64.ofNat_le_ofNat (i := 0) (by decide) (fits n hle)).mpr (Nat.zero_le _)
  · exact (Binary64.ofNat_le_ofNat (fits n hle) (fits n le_rfl)).mpr hle
  · exact Binary64.isNaN_ofNat (fits n hle)
  · intro escaped
    have hlt : stopIndex advance m.toNat s < m.toNat :=
      (Binary64.ofNat_lt_ofNat (fits m (stopIndex_le _ _ _)) (fits m le_rfl)).mp escaped
    show Binary64.ofNat _ = Binary64.ofNat _
    rw [show stopIndex advance n.toNat s = stopIndex advance m.toNat s by omega]

/-- A point outside the Mandelbrot set: what is counted under the cap 3 is counted under the cap
1000. -/
theorem count_of_raised_cap_mandelbrot :
    (3 : UInt32) ≤ 1000 ∧ mandelbrot (⟨1.0, 1.0⟩ : Complex Float) 3 = 2.0 ∧
      mandelbrot (⟨1.0, 1.0⟩ : Complex Float) 1000 = 2.0 := by
  have hle : (3 : UInt32) ≤ 1000 := by decide
  have low : mandelbrot (⟨1.0, 1.0⟩ : Complex Float) 3 = 2.0 := by decide +kernel
  obtain ⟨-, -, -, -, -, same⟩ := count_of_raised_cap ⟨1.0, 1.0⟩ .zero 2.0
    (mandelbrot ⟨1.0, 1.0⟩) (by simp [atPoint]) 3 1000 hle
  refine ⟨hle, low, (same ?_).trans low⟩
  rw [low]
  decide +kernel

end Kernel

end FractalRender
