import FractalRender.Complex
import FractalRender.Kind
import FractalRender.Palette

/-!
# What is drawn

A configuration names a fractal and its parameters; a preset says where its default view sits.
-/

namespace FractalRender

/-- A view by its centre and the width of the plane that it shows. -/
structure ViewPreset (α : Type) where
  center : Complex α
  span : α

/-- Everything a picture depends on besides the view and the surface. -/
structure Config (α : Type) where
  kind : Kind
  maxIterations : UInt32
  palette : Palette
  juliaConstant : Complex α
  multibrotPower : α

/-- The parameters that kernels read. -/
structure KernelParams (α : Type) where
  maxIterations : UInt32
  juliaConstant : Complex α
  multibrotPower : α

variable {α : Type} [Scalar α]

/-- The power of the Multibrot map unless another is asked for. -/
def defaultPower : α := 5.0

namespace Config

/-- The configuration of a new session. -/
def standard : Config α where
  kind := .mandelbrot
  maxIterations := 256
  palette := .aurora
  juliaConstant := ⟨-0.8, 0.156⟩
  multibrotPower := defaultPower

/-- The standard configuration of another fractal, cap and palette. -/
def of (kind : Kind) (maxIterations : UInt32) (palette : Palette) : Config α :=
  { standard with kind, maxIterations, palette }

omit [Scalar α] in
/-- The parameters that kernels read. -/
def params (c : Config α) : KernelParams α :=
  ⟨c.maxIterations, c.juliaConstant, c.multibrotPower⟩

/-- Whether two configurations have the same fractal, cap and palette and equal numbers.  A value
that is no number equals nothing. -/
def equal (c d : Config α) : Bool :=
  c.kind == d.kind && c.maxIterations == d.maxIterations && c.palette == d.palette &&
    c.juliaConstant.re == d.juliaConstant.re && c.juliaConstant.im == d.juliaConstant.im &&
    c.multibrotPower == d.multibrotPower

/-- Whether a new configuration brings its own view: another fractal, or a Multibrot of another
power. -/
def movesView (old new : Config α) : Bool :=
  new.kind != old.kind || (new.multibrotPower != old.multibrotPower && new.kind == .multibrot)

end Config

/-- The default view of a Multibrot: the higher the power, the nearer.  An infinite power and
no number at all are seen like the default power. -/
def multibrotPreset (power : α) : ViewPreset α :=
  let power := if Scalar.isFinite power then power else defaultPower
  let span : α := if (7.0 : α) ≤ power then 1.6 else if (5.0 : α) ≤ power then 1.8 else 2.2
  ⟨⟨0.0, 0.0⟩, span⟩

/-- The default view of a fractal. -/
def Kind.preset (power : α) : Kind → ViewPreset α
  | .mandelbrot | .tricorn => ⟨⟨-0.5, 0.0⟩, 3.5⟩
  | .julia | .newton => ⟨⟨0.0, 0.0⟩, 3.0⟩
  | .burningShip => ⟨⟨-0.5, -0.5⟩, 3.0⟩
  | .multibrot => multibrotPreset power
  | .celtic | .buffalo | .phoenix => ⟨⟨-0.5, 0.0⟩, 3.2⟩
  | .perpendicularBurningShip => ⟨⟨-0.5, -0.4⟩, 3.0⟩
  | .barnsley => ⟨⟨0.0, 5.0⟩, 9.0⟩
  | .sierpinski => ⟨⟨0.5, 0.35⟩, 1.0⟩
  | .koch => ⟨⟨0.45, -0.28⟩, 0.9⟩
  | .magnet1 => ⟨⟨1.5, 0.0⟩, 4.0⟩
  | .magnet2 => ⟨⟨1.5, 0.0⟩, 5.0⟩
  | .lambda => ⟨⟨0.0, 0.0⟩, 8.0⟩

/-- The default view of a configuration. -/
def Config.preset (c : Config α) : ViewPreset α := c.kind.preset c.multibrotPower

end FractalRender
