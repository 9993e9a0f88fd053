import FractalRender.Backend.Export
import FractalRender.Kernel.Dynamical
import FractalRender.Kernel.EscapeTime

/-!
# The native module

The compiled module that comes with the library: every kernel under its export name, with the
magnet and lambda maps that exist only there.
-/

namespace FractalRender

namespace NativeModule

/-- The name of the module. -/
def name : String := "native"

/-- The names that the module exports. -/
def exportNames : List String :=
  ["mandelbrot", "julia", "burning_ship", "tricorn", "multibrot", "celtic", "buffalo",
    "perpendicular_burning_ship", "newton", "phoenix", "magnet1", "magnet2", "lambda_fractale"]

variable {α : Type} [Scalar α] [Elementary α]

open Kernel

/-- The kernel exported under a name. -/
def export? : String → Option (Export α)
  | "mandelbrot" => some (.escape mandelbrot)
  | "julia" => some (.julia julia)
  | "burning_ship" => some (.escape burningShip)
  | "tricorn" => some (.escape tricorn)
  | "multibrot" => some (.power multibrot)
  | "celtic" => some (.escape celtic)
  | "buffalo" => some (.escape buffalo)
  | "perpendicular_burning_ship" => some (.escape perpendicularBurningShip)
  | "newton" => some (.escape newton)
  | "phoenix" => some (.escape phoenix)
  | "magnet1" => some (.escape magnet1)
  | "magnet2" => some (.escape magnet2)
  | "lambda_fractale" => some (.escape lambda)
  | _ => none

end NativeModule

/-- The compiled module that comes with the library. -/
def nativeModule (α : Type) [Scalar α] [Elementary α] : KernelModule α :=
  ⟨NativeModule.name, NativeModule.export?⟩

end FractalRender
