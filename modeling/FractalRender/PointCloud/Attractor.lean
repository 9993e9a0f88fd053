import FractalRender.Color
import FractalRender.Complex
import FractalRender.Kind

/-!
# Iterated function systems

Each system is a few affine maps of the plane, one of which is chosen by a random share.
-/

namespace FractalRender.PointCloud

/-- An iterated function system. -/
inductive Attractor where
  | barnsley
  | sierpinski
deriving DecidableEq

namespace Attractor

/-- The system of a fractal, for the fractals drawn as point clouds. -/
def ofKind? : Kind → Option Attractor
  | .barnsley => some barnsley
  | .sierpinski => some sierpinski
  | _ => none

/-- The fractal of a system. -/
def kind : Attractor → Kind
  | barnsley => .barnsley
  | sierpinski => .sierpinski

/-- How many points of the orbit are passed over before the first is plotted. -/
def burnIn : Attractor → Nat
  | barnsley => 80
  | sierpinski => 40

/-- How a plotted point lights its pixel. -/
def tint : Attractor → Tint
  | barnsley => ⟨⟨3, 24, 4⟩, ⟨120, 255, 140⟩⟩
  | sierpinski => ⟨⟨10, 16, 24⟩, ⟨160, 230, 255⟩⟩

/-- The seed of the random generator for an iteration cap: the cap shifted past the low bits,
mixed with a constant and the length of the identifier. -/
def seed (s : Attractor) (cap : UInt32) : UInt32 :=
  ((0x9e3779b9 : UInt32) ^^^ (cap <<< 7)) ^^^ UInt32.ofNat s.kind.id.utf8ByteSize

variable {α : Type} [Scalar α]

/-- The image of a point under the map that the share `r` chooses. -/
def step (s : Attractor) (z : Complex α) (r : α) : Complex α :=
  match s with
  | barnsley =>
    if r < (0.01 : α) then ⟨0.0, 0.16 * z.im⟩
    else if r < (0.86 : α) then
      ⟨0.85 * z.re + 0.04 * z.im, -0.04 * z.re + 0.85 * z.im + 1.6⟩
    else if r < (0.93 : α) then
      ⟨0.2 * z.re - 0.26 * z.im, 0.23 * z.re + 0.22 * z.im + 1.6⟩
    else
      ⟨-0.15 * z.re + 0.28 * z.im, 0.26 * z.re + 0.24 * z.im + 0.44⟩
  | sierpinski =>
    if r < (1.0 / 3.0 : α) then ⟨0.5 * z.re, 0.5 * z.im⟩
    else if r < (2.0 / 3.0 : α) then ⟨0.5 * z.re + 0.5, 0.5 * z.im⟩
    else ⟨0.5 * z.re + 0.25, 0.5 * z.im + 0.43301270189⟩

end Attractor

end FractalRender.PointCloud
