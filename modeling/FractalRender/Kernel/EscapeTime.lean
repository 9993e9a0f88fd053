import FractalRender.Kernel.Orbit

/-!
# Escape-time kernels

Each kernel is the escape time of an orbit of one map of the plane.  `c` is the point asked about,
except in `julia`, where the orbit starts there and `c` is fixed.
-/

namespace FractalRender.Kernel

variable {α : Type} [Scalar α]

/-! ### Orbits -/

/-- `z ↦ z² + c` from `z`. -/
@[inline] def quadraticOrbit (c z : Complex α) : Orbit := .escaping (fun z => z.square.add c) z

/-- `z ↦ (|Re z| + i |Im z|)² + c` from 0. -/
@[inline] def burningShipOrbit (c : Complex α) : Orbit :=
  .escaping (fun z => (Complex.square ⟨Scalar.abs z.re, Scalar.abs z.im⟩).add c) .zero

/-- `z ↦ z̄² + c` from 0. -/
@[inline] def tricornOrbit (c : Complex α) : Orbit :=
  .escaping (fun z => ⟨z.re * z.re - z.im * z.im + c.re, -2.0 * z.re * z.im + c.im⟩) .zero

/-- `z ↦ z² + c` with the real part of the square folded, from 0. -/
@[inline] def celticOrbit (c : Complex α) : Orbit :=
  .escaping (fun z => ⟨Scalar.abs (z.re * z.re - z.im * z.im) + c.re,
    2.0 * z.re * z.im + c.im⟩) .zero

/-- `z ↦ z² + c` with both parts of the square folded, from 0. -/
@[inline] def buffaloOrbit (c : Complex α) : Orbit :=
  .escaping (fun z => ⟨Scalar.abs (z.re * z.re - z.im * z.im) + c.re,
    Scalar.abs (2.0 * z.re * z.im) + c.im⟩) .zero

/-- The burning ship with only the real part folded in the cross term, from 0. -/
@[inline] def perpendicularBurningShipOrbit (c : Complex α) : Orbit :=
  .escaping (fun z =>
    let x := Scalar.abs z.re
    let y := Scalar.abs z.im
    ⟨x * x - y * y + c.re, -2.0 * x * z.im + c.im⟩) .zero

/-- `z ↦ z^p + c` in polar form, from 0. -/
@[inline] def multibrotOrbit [Elementary α] (c : Complex α) (power : α) : Orbit :=
  .escaping (fun z =>
    let radius := Elementary.pow (Elementary.sqrt z.normSq) power
    let angle := power * Elementary.atan2 z.im z.re
    ⟨radius * Elementary.cos angle + c.re, radius * Elementary.sin angle + c.im⟩) .zero

/-! ### Kernels -/

def mandelbrot (c : Complex α) (cap : UInt32) : α := (quadraticOrbit c .zero).stopTime cap

def julia (z c : Complex α) (cap : UInt32) : α := (quadraticOrbit c z).stopTime cap

def burningShip (c : Complex α) (cap : UInt32) : α := (burningShipOrbit c).stopTime cap

def tricorn (c : Complex α) (cap : UInt32) : α := (tricornOrbit c).stopTime cap

def celtic (c : Complex α) (cap : UInt32) : α := (celticOrbit c).stopTime cap

def buffalo (c : Complex α) (cap : UInt32) : α := (buffaloOrbit c).stopTime cap

def perpendicularBurningShip (c : Complex α) (cap : UInt32) : α :=
  (perpendicularBurningShipOrbit c).stopTime cap

def multibrot [Elementary α] (c : Complex α) (cap : UInt32) (power : α) : α :=
  (multibrotOrbit c power).stopTime cap

end FractalRender.Kernel
