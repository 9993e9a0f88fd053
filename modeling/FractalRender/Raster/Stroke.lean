import FractalRender.Raster.PixelBuffer
import FractalRender.Viewport

/-!
# Strokes

A stroke through a list of positions is a list of samples, close enough that the brush leaves no
gap, and a square of pixels painted at every sample.
-/

namespace FractalRender.Stroke

variable {α : Type} [Scalar α]

/-- The side of the brush for a stroke of the given width, in pixels. -/
def brushSize (width : α) : Nat := max (Scalar.round width).toNat 1

/-- Into how many parts the way from `p` to `q` is cut: one for each pixel of its longer side, and
at least one. -/
def parts (p q : Point α) : Nat :=
  max (Scalar.ceilWord (Scalar.larger (Scalar.abs (q.x - p.x)) (Scalar.abs (q.y - p.y)))) 1

/-- The position after `i` of `n` parts of the way from `p` to `q`. -/
def sample (p q : Point α) (n i : Nat) : Point α :=
  let t : α := Scalar.ofNat i / Scalar.ofNat n
  ⟨p.x + (q.x - p.x) * t, p.y + (q.y - p.y) * t⟩

/-- The samples of a segment, both ends included. -/
def segmentSamples (p q : Point α) : List (Point α) :=
  let n := parts p q
  (List.range (n + 1)).map (sample p q n)

/-- The samples of a stroke: those of its segments, or the one position if there is no segment. -/
def samples : List (Point α) → List (Point α)
  | [p] => [p]
  | ps => (ps.zip (ps.drop 1)).flatMap fun s => segmentSamples s.1 s.2

/-- The column or row at which the brush starts when its sample has the given coordinate. -/
def corner (brush : Nat) (a : α) : Int := Scalar.floor a - (brush / 2 : Nat)

/-- The buffer with the pixel at a position painted, where positions may be negative. -/
def putInt (b : PixelBuffer) (x y : Int) (c : Rgb) : PixelBuffer :=
  if 0 ≤ x ∧ 0 ≤ y then b.put x.toNat y.toNat c else b

/-- The buffer with the square of the brush painted at one sample. -/
def stamp (b : PixelBuffer) (brush : Nat) (c : Rgb) (p : Point α) : PixelBuffer :=
  (List.range brush).foldl (fun b (j : Nat) =>
    (List.range brush).foldl (fun b (i : Nat) =>
      putInt b (corner brush p.x + i) (corner brush p.y + j) c) b) b

/-- The buffer with a stroke through the given positions. -/
def draw (b : PixelBuffer) (ps : List (Point α)) (c : Rgb) (width : α) : PixelBuffer :=
  (samples ps).foldl (fun b p => stamp b (brushSize width) c p) b

theorem size_putInt (b : PixelBuffer) (x y : Int) (c : Rgb) : (putInt b x y c).size = b.size := by
  unfold putInt
  split
  · exact b.size_put _ _ c
  · rfl

@[simp] theorem size_stamp (b : PixelBuffer) (brush : Nat) (c : Rgb) (p : Point α) :
    (stamp b brush c p).size = b.size :=
  PixelBuffer.size_foldl (fun b _ => PixelBuffer.size_foldl (fun b _ => size_putInt b _ _ c) _ b) _ b

@[simp] theorem size_draw (b : PixelBuffer) (ps : List (Point α)) (c : Rgb) (width : α) :
    (draw b ps c width).size = b.size :=
  PixelBuffer.size_foldl (fun b p => size_stamp b _ c p) _ b

end FractalRender.Stroke
