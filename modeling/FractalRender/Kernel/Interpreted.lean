import FractalRender.Config
import FractalRender.Kernel.Dynamical
import FractalRender.Kernel.EscapeTime

/-!
# The kernels the library draws with

`interpreted?` is the value of a fractal at a point of the plane, for the fractals that the
library draws without a compiled module; `colorValue` is what of it reaches the palette.
-/

namespace FractalRender.Kernel

variable {α : Type} [Scalar α]

/-- The value of a fractal at a point; nothing for fractals without a kernel of the library's
own. -/
def interpreted? [Elementary α] (kind : Kind) (p : KernelParams α) (z : Complex α) : Option α :=
  match kind with
  | .mandelbrot => some (mandelbrot z p.maxIterations)
  | .julia => some (julia z p.juliaConstant p.maxIterations)
  | .burningShip => some (burningShip z p.maxIterations)
  | .tricorn => some (tricorn z p.maxIterations)
  | .multibrot => some (multibrot z p.maxIterations p.multibrotPower)
  | .celtic => some (celtic z p.maxIterations)
  | .buffalo => some (buffalo z p.maxIterations)
  | .perpendicularBurningShip => some (perpendicularBurningShip z p.maxIterations)
  | .newton => some (newton z p.maxIterations)
  | .phoenix => some (phoenix z p.maxIterations)
  | .barnsley | .sierpinski | .koch | .magnet1 | .magnet2 | .lambda => none

/-- What the palette is asked to colour.  A Multibrot escapes within a few steps, so its values
outside are stretched, to at most one less than the cap. -/
def colorValue (kind : Kind) (value : α) (cap : UInt32) : α :=
  let max : α := Scalar.ofNat cap.toNat
  if kind = .multibrot ∧ value < max then Scalar.smaller (12.0 + value * 14.0) (max - 1.0) else value

end FractalRender.Kernel
