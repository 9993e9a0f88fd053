import FractalRender.Config
import FractalRender.Raster.Surface

/-!
# The view onto the plane

A viewport maps positions on a surface to points of the plane: the middle of the surface shows
the centre, and a pixel is `unitsPerPixel` wide.
-/

namespace FractalRender

/-- A position on a surface, in pixels. -/
structure Point (α : Type) where
  x : α
  y : α

/-- Where the plane is looked at, and how closely. -/
structure Viewport (α : Type) where
  center : Complex α
  unitsPerPixel : α

/-- Why a view is refused. -/
inductive ViewportError (α : Type) where
  /-- A scale that is not finite or not above 0. -/
  | invalidScale (scale : α)
  /-- A zoom factor that is not finite or not above 0. -/
  | invalidZoomFactor (factor : α)

variable {α : Type} [Scalar α]

/-- Whether a scale or factor can be used: finite and above 0. -/
def isUsableScale (a : α) : Bool := Scalar.isFinite a && decide ((0.0 : α) < a)

/-- A width in pixels as a number, where no width counts as one pixel. -/
def widthScale (width : UInt32) : α := Scalar.ofNat (max width 1).toNat

namespace Viewport

/-- The view with the given centre and scale, if the scale can be used. -/
def ofScale (center : Complex α) (unitsPerPixel : α) : Except (ViewportError α) (Viewport α) :=
  if isUsableScale unitsPerPixel then .ok ⟨center, unitsPerPixel⟩
  else .error (.invalidScale unitsPerPixel)

/-- The view that shows a preset across a surface of the given width. -/
def ofPreset (preset : ViewPreset α) (width : UInt32) : Viewport α :=
  ⟨preset.center, preset.span / widthScale width⟩

/-- The view itself, if its scale can be used. -/
def validated (v : Viewport α) : Except (ViewportError α) (Viewport α) :=
  ofScale v.center v.unitsPerPixel

/-- The point of the plane shown at a position of the surface. -/
def toComplex (v : Viewport α) (p : Point α) (s : Surface) : Complex α :=
  ⟨v.center.re + (p.x - Scalar.ofNat s.width.toNat / 2.0) * v.unitsPerPixel,
    v.center.im + (p.y - Scalar.ofNat s.height.toNat / 2.0) * v.unitsPerPixel⟩

/-- The position of the surface at which a point of the plane is shown. -/
def toPixel (v : Viewport α) (z : Complex α) (s : Surface) : Point α :=
  ⟨(z.re - v.center.re) / v.unitsPerPixel + Scalar.ofNat s.width.toNat / 2.0,
    (z.im - v.center.im) / v.unitsPerPixel + Scalar.ofNat s.height.toNat / 2.0⟩

/-- The view `factor` times nearer, with the point under `p` kept where it is. -/
def zoomAt (v : Viewport α) (p : Point α) (factor : α) (s : Surface) :
    Except (ViewportError α) (Viewport α) :=
  if isUsableScale factor then
    let anchor := v.toComplex p s
    let scale := v.unitsPerPixel / factor
    if isUsableScale scale then
      .ok ⟨⟨anchor.re + (v.center.re - anchor.re) / factor,
        anchor.im + (v.center.im - anchor.im) / factor⟩, scale⟩
    else .error (.invalidScale scale)
  else .error (.invalidZoomFactor factor)

/-- The view dragged by a distance in pixels. -/
def pan (v : Viewport α) (drag : Point α) : Viewport α :=
  { v with center := ⟨v.center.re - drag.x * v.unitsPerPixel, v.center.im - drag.y * v.unitsPerPixel⟩ }

/-- The view that shows the same span of the plane when the width changes. -/
def rescaleForWidth (v : Viewport α) (old new : UInt32) : Viewport α :=
  { v with unitsPerPixel := v.unitsPerPixel * (widthScale old / widthScale new) }

/-- The width of the plane shown across a surface of the given width. -/
def span (v : Viewport α) (width : UInt32) : α := v.unitsPerPixel * Scalar.ofNat width.toNat

end Viewport

end FractalRender
