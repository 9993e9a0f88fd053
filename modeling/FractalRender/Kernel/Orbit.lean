import FractalRender.Complex

/-!
# Orbits and the time at which they stop

A kernel follows an orbit until a rule stops it or a cap is reached.  The rule and the map are
one function `advance`: nothing means that the orbit stops here.  `stopIndex` is the index of the
state at which the orbit stopped, or the cap.  An `Orbit` has its states, its `advance` and its
start together, and `Orbit.stopTime` is its index as a number.
-/

namespace FractalRender

variable {σ : Type}

/-- Counts on from `i` for at most `n` steps. -/
@[specialize] def stopFrom (advance : σ → Option σ) (i : Nat) : Nat → σ → Nat
  | 0, _ => i
  | n + 1, s =>
    match advance s with
    | none => i
    | some t => stopFrom advance (i + 1) n t

/-- The index of the first state from which `advance` does not go on, at most `cap`. -/
@[inline] def stopIndex (advance : σ → Option σ) (cap : Nat) (s : σ) : Nat :=
  stopFrom advance 0 cap s

theorem stopFrom_eq_add (advance : σ → Option σ) (i n : Nat) (s : σ) :
    stopFrom advance i n s = i + stopFrom advance 0 n s := by
  induction n generalizing i s with
  | zero => rfl
  | succ n ih =>
    unfold stopFrom
    split
    · rfl
    · rw [ih (i + 1), ih (0 + 1)]
      omega

theorem stopIndex_zero (advance : σ → Option σ) (s : σ) : stopIndex advance 0 s = 0 := rfl

/-- An orbit that stops at once has index 0. -/
theorem stopIndex_succ_of_none {advance : σ → Option σ} {s : σ} (n : Nat) (h : advance s = none) :
    stopIndex advance (n + 1) s = 0 := by
  simp [stopIndex, stopFrom, h]

/-- An orbit that goes on stops one later than from its next state. -/
theorem stopIndex_succ_of_some {advance : σ → Option σ} {s t : σ} (n : Nat)
    (h : advance s = some t) : stopIndex advance (n + 1) s = stopIndex advance n t + 1 := by
  simp only [stopIndex, stopFrom, h]
  rw [stopFrom_eq_add]
  omega

/-- An orbit: where it starts, and how it goes on, as long as it does.  What its states are is its
own affair. -/
structure Orbit where
  State : Type
  advance : State → Option State
  start : State

variable {α : Type} [Scalar α]

/-- The squared radius beyond which an orbit has escaped. -/
@[inline] def bailoutSq : α := 4.0

namespace Orbit

/-- The index at which the orbit stops, at most the cap, as a number of the picture. -/
@[inline] def stopTime (o : Orbit) (cap : UInt32) : α :=
  Scalar.ofNat (stopIndex o.advance cap.toNat o.start)

/-- The orbit of `z` under `step`, until it lies beyond the bailout radius. -/
@[inline] def escaping (step : Complex α → Complex α) (z : Complex α) : Orbit where
  State := Complex α
  advance z := if bailoutSq < z.normSq then none else some (step z)
  start := z

end Orbit

end FractalRender
