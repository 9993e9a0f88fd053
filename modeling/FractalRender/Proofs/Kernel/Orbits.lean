import FractalRender.Kernel.Interpreted
import Mathlib.Order.Nat

/-!
# Kernels — the orbits they follow

A kernel follows one orbit, and the cap only says for how long: whatever stops the orbit, the cap is
not looked at.

* `stopIndex_le`, `stopIndex_eq_min`: an index is at most its cap, and a smaller cap cuts it off and
  changes nothing else.
* `stopIndex_eq_iff`: an index is its cap when the orbit goes on for as many steps.
* `Kind.orbit?`: the orbit of each fractal at a point.
* `exists_orbit`: the library's own kernels count the steps of these orbits.
-/

namespace FractalRender

/-! ### Indices and caps -/

section

variable {σ : Type} (advance : σ → Option σ)

/-- An index is at most its cap. -/
theorem stopIndex_le (n : Nat) (s : σ) : stopIndex advance n s ≤ n := by
  induction n generalizing s with
  | zero => exact le_rfl
  | succ n ih =>
      cases h : advance s with
      | none =>
          rw [stopIndex_succ_of_none n h]
          exact Nat.zero_le _
      | some t =>
          rw [stopIndex_succ_of_some n h]
          exact Nat.succ_le_succ (ih t)

/-- **A smaller cap cuts the index off**, and changes nothing else. -/
theorem stopIndex_eq_min {m n : Nat} (h : m ≤ n) (s : σ) :
    stopIndex advance m s = min (stopIndex advance n s) m := by
  induction m generalizing n s with
  | zero => rw [stopIndex_zero, Nat.min_zero]
  | succ m ih =>
      obtain ⟨n, rfl⟩ : ∃ k, n = k + 1 := ⟨n - 1, by omega⟩
      cases hs : advance s with
      | none => rw [stopIndex_succ_of_none m hs, stopIndex_succ_of_none n hs, Nat.zero_min]
      | some t =>
          rw [stopIndex_succ_of_some m hs, stopIndex_succ_of_some n hs,
            ih (Nat.le_of_succ_le_succ h), Nat.succ_min_succ]

/-- The orbit goes on for so many steps. -/
def GoesOn : Nat → σ → Prop
  | 0, _ => True
  | n + 1, s => ∃ t, advance s = some t ∧ GoesOn n t

/-- **An index is its cap** when the orbit goes on for as many steps. -/
theorem stopIndex_eq_iff (n : Nat) (s : σ) : stopIndex advance n s = n ↔ GoesOn advance n s := by
  induction n generalizing s with
  | zero => exact iff_of_true rfl trivial
  | succ n ih =>
      cases h : advance s with
      | none =>
          rw [stopIndex_succ_of_none n h, GoesOn, h]
          exact iff_of_false (by omega) (by rintro ⟨_, ht, -⟩; cases ht)
      | some t =>
          rw [stopIndex_succ_of_some n h, Nat.add_right_cancel_iff, ih, GoesOn, h]
          simp

end

/-! ### The orbits of the fractals -/

section

variable {α : Type} [Scalar α] [Elementary α]

open Kernel in
/-- The orbit that belongs to a point of a fractal; nothing for fractals that are not drawn point by
point. -/
def Kind.orbit? (kind : Kind) (p : KernelParams α) (z : Complex α) : Option Orbit :=
  match kind with
  | .mandelbrot => some (quadraticOrbit z .zero)
  | .julia => some (quadraticOrbit p.juliaConstant z)
  | .burningShip => some (burningShipOrbit z)
  | .tricorn => some (tricornOrbit z)
  | .multibrot => some (multibrotOrbit z p.multibrotPower)
  | .celtic => some (celticOrbit z)
  | .buffalo => some (buffaloOrbit z)
  | .perpendicularBurningShip => some (perpendicularBurningShipOrbit z)
  | .newton => some (newtonOrbit z)
  | .phoenix => some (phoenixOrbit z)
  | .magnet1 => some (magnet1Orbit z)
  | .magnet2 => some (magnet2Orbit z)
  | .lambda => some (lambdaOrbit z)
  | .barnsley | .sierpinski | .koch => none

/-- **The library's own kernels** count the steps of the fractal's orbit. -/
theorem exists_orbit {kind : Kind} {p : KernelParams α} {z : Complex α} {v : α}
    (h : Kernel.interpreted? kind p z = some v) :
    ∃ o, kind.orbit? p z = some o ∧ v = o.stopTime p.maxIterations := by
  cases kind with
  | barnsley | sierpinski | koch | magnet1 | magnet2 | lambda => cases h
  | _ => exact ⟨_, rfl, (Option.some.inj h).symm⟩

end

end FractalRender
