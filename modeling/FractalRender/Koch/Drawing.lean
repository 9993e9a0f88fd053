import FractalRender.Koch.Word
import FractalRender.Raster.Stroke

/-!
# Drawing the Koch curve

A turtle reads the word and leaves a position at the start and after every step forward; the
positions are stroked in one colour on black.
-/

namespace FractalRender.Koch

variable {α : Type} [Scalar α] [Elementary α]

/-- A third of a half turn. -/
def thirdPi : α := 1.04719755119659774615421446109316763

/-- Where the turtle is and where it looks. -/
structure Turtle (α : Type) where
  position : Point α
  heading : α

/-- The turtle after one command.  A character that is no command does nothing. -/
def Turtle.obey (segment : α) (t : Turtle α) (command : Char) : Turtle α :=
  if command = 'F' then
    { t with position := ⟨t.position.x + segment * Elementary.cos t.heading,
                          t.position.y + segment * Elementary.sin t.heading⟩ }
  else if command = '+' then { t with heading := t.heading + thirdPi }
  else if command = '-' then { t with heading := t.heading - thirdPi }
  else t

/-- The length of a step forward in a word of the given depth across the given width.  The depth
is read as a signed word. -/
def segment (depth : UInt32) (width : UInt32) : α :=
  0.8 * Scalar.ofNat width.toNat / Scalar.powInt 3.0 depth.toInt32.toInt

/-- The turtle at the start: a tenth of the width in, well below the middle, facing right. -/
def start (s : Surface) : Turtle α :=
  ⟨⟨0.1 * Scalar.ofNat s.width.toNat, 0.65 * Scalar.ofNat s.height.toNat⟩, 0.0⟩

/-- The positions a turtle leaves from its start on: one there and one after every step. -/
def polyline (word : List Char) (depth : UInt32) (s : Surface) : Array (Point α) :=
  let length : α := segment depth s.width
  let first : Turtle α := start s
  (word.foldl (fun (t, trail) c =>
    let t := t.obey length c
    (t, if c = 'F' then trail.push t.position else trail)) (first, #[first.position])).2

/-- The width of the stroke: one pixel for each 800 of the surface, at least 1 and at most 2. -/
def strokeWidth (width : UInt32) : α :=
  let w : α := Scalar.ofNat width.toNat / 800.0
  if w < (1.0 : α) then 1.0 else if (2.0 : α) < w then 2.0 else w

/-- The colour of the stroke for an iteration cap. -/
def strokeColor (α : Type) [Scalar α] [Elementary α] (cap : UInt32) (p : Palette) : Rgb :=
  let max : α := Scalar.ofNat cap.toNat
  p.color (Scalar.smaller (max * 0.6) (max - 1.0)) max

/-- The buffer with the whole curve drawn over black. -/
def draw (α : Type) [Scalar α] [Elementary α] (b : PixelBuffer) (cap : UInt32) (p : Palette) :
    PixelBuffer :=
  let depth := depthFor cap
  let points : Array (Point α) := polyline (generate depth) (UInt32.ofNat depth) b.size
  Stroke.draw (b.fill .black) points.toList (strokeColor α cap p) (strokeWidth b.size.width : α)

@[simp] theorem size_draw (b : PixelBuffer) (cap : UInt32) (p : Palette) :
    (draw α b cap p).size = b.size := by
  simp [draw]

end FractalRender.Koch
