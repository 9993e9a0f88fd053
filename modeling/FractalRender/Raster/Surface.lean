import FractalRender.Scalar.Word

/-!
# Surfaces, rows and bands

A surface is a size in pixels.  Work on it is cut into bands of rows, from the top down.
-/

namespace FractalRender

/-- A size in pixels. -/
structure Surface where
  width : UInt32
  height : UInt32
deriving DecidableEq

namespace Surface

/-- The number of pixels. -/
def area (s : Surface) : Nat := s.width.toNat * s.height.toNat

/-- Whether the surface has no pixels. -/
def isEmpty (s : Surface) : Bool := s.width == 0 || s.height == 0

end Surface

/-- The rows from `start` to just before `stop`. -/
structure RowRange where
  start : UInt32
  stop : UInt32
deriving DecidableEq

namespace RowRange

/-- How many rows there are; none when the range is reversed. -/
def count (r : RowRange) : Nat := r.stop.toNat - r.start.toNat

/-- Whether there are no rows. -/
def isEmpty (r : RowRange) : Bool := decide (r.stop ≤ r.start)

end RowRange

/-- A rectangle of pixels. -/
structure PixelRect where
  x : UInt32
  y : UInt32
  width : UInt32
  height : UInt32
deriving DecidableEq

namespace PixelRect

/-- The rows a rectangle takes up, in a build without overflow checks. -/
def rows (r : PixelRect) : RowRange := ⟨r.y, r.y + r.height⟩

/-- The rows a rectangle takes up, in a build with overflow checks. -/
def checkedRows (r : PixelRect) : Except Overflow RowRange :=
  (checkedAdd r.y r.height).map fun stop => ⟨r.y, stop⟩

/-- **Both builds** give the same rows, as long as they end within the words. -/
theorem checkedRows_eq (r : PixelRect) : r.checkedRows =
    if r.y.toNat + r.height.toNat < UInt32.size then .ok r.rows else .error .sum :=
  map_checkedAdd _ r.y r.height

end PixelRect

/-- How many bands of `band` rows cover `height` rows; the last may be shorter. -/
def bandCount (height band : Nat) : Nat := (height + band - 1) / band

/-- The surface cut into bands of full width and `bandHeight` rows, the last one shorter where
the height asks for it.  A band height of 0 counts as 1. -/
def rowBands (s : Surface) (bandHeight : UInt32) : Array PixelRect :=
  let band := max bandHeight 1
  (Array.range (bandCount s.height.toNat band.toNat)).map fun i =>
    let y := UInt32.ofNat (i * band.toNat)
    ⟨0, y, s.width, min band (s.height - y)⟩

theorem size_rowBands (s : Surface) (bandHeight : UInt32) :
    (rowBands s bandHeight).size = bandCount s.height.toNat (max bandHeight 1).toNat := by
  simp [rowBands]

end FractalRender
