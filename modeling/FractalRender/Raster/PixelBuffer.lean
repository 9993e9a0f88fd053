import FractalRender.Color
import FractalRender.Raster.Surface

/-!
# The pixel buffer

A buffer holds four bytes a pixel, row after row.  Its size and its bytes always fit: the type
carries the proof.  `pixel?` is the view of a buffer by position; `put` and `light` change what
it shows at one position and nothing else, and a position outside is left alone.

Lengths and places of bytes are natural numbers.  A machine computes them in its address words, so
all that is said of a surface assumes that its buffer can be addressed: that `4 * width * height` is
a length the machine has words for.  A larger buffer cannot be made.
-/

namespace FractalRender

/-- A channel of a pixel, in the order in which the bytes stand. -/
def Rgba.channel (p : Rgba) : Nat → UInt8
  | 0 => p.red
  | 1 => p.green
  | 2 => p.blue
  | _ => p.alpha

/-- Where the bytes of a pixel start, if the buffer of the surface can be addressed. -/
def Surface.offset (s : Surface) (x y : Nat) : Nat := (y * s.width.toNat + x) * 4

/-- Different positions on a surface have their bytes in different places. -/
theorem Surface.offset_ne {s : Surface} {x y x' y' : Nat} (hx : x < s.width.toNat)
    (hx' : x' < s.width.toNat) (h : ¬ (x' = x ∧ y' = y)) :
    s.offset x y + 4 ≤ s.offset x' y' ∨ s.offset x' y' + 4 ≤ s.offset x y := by
  have hw : 0 < s.width.toNat := by omega
  have hne : y * s.width.toNat + x ≠ y' * s.width.toNat + x' := by
    intro he
    have hy : y = y' := by
      have := congrArg (· / s.width.toNat) he
      simpa [Nat.add_comm _ x, Nat.add_comm _ x', Nat.add_mul_div_right, hw,
        Nat.div_eq_of_lt hx, Nat.div_eq_of_lt hx'] using this
    subst hy
    exact h ⟨by omega, rfl⟩
  simp only [Surface.offset]
  omega

/-- Four bytes a pixel, row after row. -/
structure PixelBuffer where
  size : Surface
  bytes : Array UInt8
  size_bytes : bytes.size = 4 * size.area

namespace PixelBuffer

/-- Whether a position lies on the buffer. -/
abbrev Contains (b : PixelBuffer) (x y : Nat) : Prop :=
  x < b.size.width.toNat ∧ y < b.size.height.toNat

theorem offset_add_lt (b : PixelBuffer) {x y c : Nat} (h : b.Contains x y) (hc : c < 4) :
    b.size.offset x y + c < b.bytes.size := by
  have hrow : y * b.size.width.toNat + b.size.width.toNat
      ≤ b.size.width.toNat * b.size.height.toNat := by
    have := Nat.mul_le_mul_right b.size.width.toNat (Nat.succ_le_of_lt h.2)
    rw [Nat.mul_comm b.size.width.toNat]
    simpa [Nat.succ_mul] using this
  have := b.size_bytes
  have := h.1
  simp only [Surface.offset, Surface.area] at *
  omega

/-- A buffer of empty pixels, if it can be addressed. -/
def blank (s : Surface) : PixelBuffer where
  size := s
  bytes := Array.replicate (4 * s.area) 0
  size_bytes := by simp

/-- The buffer without pixels. -/
def empty : PixelBuffer := blank ⟨0, 0⟩

/-- The buffer itself if it has the size asked for, and a blank one of that size if not. -/
def ensureSize (b : PixelBuffer) (s : Surface) : PixelBuffer :=
  if b.size = s then b else blank s

/-- The buffer with every pixel equal to `p`. -/
def fill (b : PixelBuffer) (p : Rgba) : PixelBuffer where
  size := b.size
  bytes := Array.ofFn fun i : Fin (4 * b.size.area) => p.channel (i.val % 4)
  size_bytes := by simp

/-- The buffer with every pixel empty. -/
def clear (b : PixelBuffer) : PixelBuffer := b.fill .clear

/-- The buffer with one of its pixels replaced. -/
def set (b : PixelBuffer) (x y : Nat) (h : b.Contains x y) (p : Rgba) : PixelBuffer where
  size := b.size
  bytes :=
    let i := b.size.offset x y
    have hi : i + 3 < b.bytes.size := b.offset_add_lt h (by decide)
    (((b.bytes.set i p.red (by omega)).set (i + 1) p.green (by simp; omega)).set (i + 2) p.blue
      (by simp; omega)).set (i + 3) p.alpha (by simp; omega)
  size_bytes := by simp [b.size_bytes]

/-- The pixel at a position of the buffer. -/
def get (b : PixelBuffer) (x y : Nat) (h : b.Contains x y) : Rgba :=
  let i := b.size.offset x y
  have hi : i + 3 < b.bytes.size := b.offset_add_lt h (by decide)
  ⟨⟨b.bytes[i], b.bytes[i + 1], b.bytes[i + 2]⟩, b.bytes[i + 3]⟩

/-- The pixel at a position, and nothing outside the buffer. -/
def pixel? (b : PixelBuffer) (x y : Nat) : Option Rgba :=
  if h : b.Contains x y then some (b.get x y h) else none

/-- The buffer with the pixel at a position painted. -/
def put (b : PixelBuffer) (x y : Nat) (c : Rgb) : PixelBuffer :=
  if h : b.Contains x y then b.set x y h c.solid else b

/-- The buffer with the pixel at a position lit once. -/
def light (b : PixelBuffer) (x y : Nat) (t : Tint) : PixelBuffer :=
  if h : b.Contains x y then b.set x y h (t.apply (b.get x y h)) else b

/-- The bytes of a range of rows; rows that do not exist are left out. -/
def rowBytes (b : PixelBuffer) (rows : RowRange) : Array UInt8 :=
  let start := min rows.start.toNat b.size.height.toNat
  let stop := max (min rows.stop.toNat b.size.height.toNat) start
  let stride := b.size.width.toNat * 4
  b.bytes.extract (start * stride) (stop * stride)

/-- The buffer with every pixel of a rectangle painted in the colour of its position. -/
@[specialize] def paint (b : PixelBuffer) (r : PixelRect) (color : Nat → Nat → Rgb) : PixelBuffer :=
  (List.range' r.y.toNat r.height.toNat).foldl (fun b y =>
    (List.range' r.x.toNat r.width.toNat).foldl (fun b x => b.put x y (color x y)) b) b

/-! ### What is seen after an operation -/

@[simp] theorem size_fill (b : PixelBuffer) (p : Rgba) : (b.fill p).size = b.size := rfl

@[simp] theorem size_put (b : PixelBuffer) (x y : Nat) (c : Rgb) : (b.put x y c).size = b.size := by
  unfold put; split <;> rfl

@[simp] theorem size_light (b : PixelBuffer) (x y : Nat) (t : Tint) :
    (b.light x y t).size = b.size := by
  unfold light; split <;> rfl

/-- Replacing a pixel changes what is read at its position and nowhere else. -/
theorem get_set (b : PixelBuffer) {x y x' y' : Nat} (h : b.Contains x y) (p : Rgba)
    (h' : b.Contains x' y') :
    (b.set x y h p).get x' y' h' = if x' = x ∧ y' = y then p else b.get x' y' h' := by
  by_cases he : x' = x ∧ y' = y
  · obtain ⟨rfl, rfl⟩ := he
    simp [get, set, Array.getElem_set]
  · rw [if_neg he]
    simp only [get, set, Array.getElem_set, Rgba.mk.injEq, Rgb.mk.injEq]
    rcases Surface.offset_ne h.1 h'.1 he with ho | ho
    all_goals refine ⟨⟨?_, ?_, ?_⟩, ?_⟩
    all_goals rw [if_neg (by omega), if_neg (by omega), if_neg (by omega), if_neg (by omega)]

/-- What is seen after painting a pixel. -/
theorem pixel?_put (b : PixelBuffer) (x y : Nat) (c : Rgb) (x' y' : Nat) :
    (b.put x y c).pixel? x' y' =
      if x' = x ∧ y' = y ∧ b.Contains x y then some c.solid else b.pixel? x' y' := by
  unfold put
  split
  · next h =>
    unfold pixel?
    by_cases h' : b.Contains x' y'
    · rw [dif_pos h', dif_pos (show (b.set x y h c.solid).Contains x' y' from h'), get_set]
      by_cases he : x' = x ∧ y' = y
      · simp [he, h]
      · rw [if_neg he, if_neg (fun hc => he ⟨hc.1, hc.2.1⟩)]
    · rw [dif_neg h', dif_neg (show ¬ (b.set x y h c.solid).Contains x' y' from h'), if_neg]
      rintro ⟨rfl, rfl, _⟩
      exact h' h
  · next h => simp [h]

/-- What is seen after lighting a pixel. -/
theorem pixel?_light (b : PixelBuffer) (x y : Nat) (t : Tint) (x' y' : Nat) :
    (b.light x y t).pixel? x' y' =
      if x' = x ∧ y' = y then (b.pixel? x y).map t.apply else b.pixel? x' y' := by
  unfold light
  split
  · next h =>
    unfold pixel?
    rw [dif_pos h]
    by_cases h' : b.Contains x' y'
    · rw [dif_pos h', dif_pos (show (b.set x y h _).Contains x' y' from h'), get_set]
      split <;> rfl
    · rw [dif_neg h', dif_neg (show ¬ (b.set x y h _).Contains x' y' from h'), if_neg]
      rintro ⟨rfl, rfl⟩
      exact h' h
  · next h =>
    split
    · next he => obtain ⟨rfl, rfl⟩ := he; simp [pixel?, h]
    · rfl

/-- Changes that keep the size keep it together. -/
theorem size_foldl {β : Type} {f : PixelBuffer → β → PixelBuffer}
    (hf : ∀ b a, (f b a).size = b.size) (l : List β) (b : PixelBuffer) :
    (l.foldl f b).size = b.size := by
  induction l generalizing b with
  | nil => rfl
  | cons a l ih => rw [List.foldl_cons, ih, hf]

@[simp] theorem size_paint (b : PixelBuffer) (r : PixelRect) (color : Nat → Nat → Rgb) :
    (b.paint r color).size = b.size :=
  size_foldl (fun b _ => size_foldl (fun b _ => size_put b _ _ _) _ b) _ b

@[simp] theorem size_ensureSize (b : PixelBuffer) (s : Surface) : (b.ensureSize s).size = s := by
  unfold ensureSize
  split
  · assumption
  · rfl

/-- What is seen after painting a part of a row. -/
theorem pixel?_paintRow (b : PixelBuffer) (color : Nat → Nat → Rgb) (x n y x' y' : Nat) :
    ((List.range' x n).foldl (fun b x => b.put x y (color x y)) b).pixel? x' y' =
      if (x ≤ x' ∧ x' < x + n) ∧ y' = y ∧ b.Contains x' y' then some (color x' y').solid
      else b.pixel? x' y' := by
  induction n generalizing x b with
  | zero =>
    rw [if_neg fun h => Nat.not_lt_of_ge h.1.1 h.1.2]
    rfl
  | succ n ih =>
    rw [List.range'_succ, List.foldl_cons, ih, pixel?_put]
    simp only [Contains, size_put]
    grind

/-- What is seen after painting a rectangle. -/
theorem pixel?_paint (b : PixelBuffer) (r : PixelRect) (color : Nat → Nat → Rgb) (x' y' : Nat) :
    (b.paint r color).pixel? x' y' =
      if (r.x.toNat ≤ x' ∧ x' < r.x.toNat + r.width.toNat) ∧
          (r.y.toNat ≤ y' ∧ y' < r.y.toNat + r.height.toNat) ∧ b.Contains x' y' then
        some (color x' y').solid
      else b.pixel? x' y' := by
  unfold paint
  generalize r.y.toNat = y
  generalize r.height.toNat = n
  induction n generalizing y b with
  | zero =>
    rw [if_neg fun h => Nat.not_lt_of_ge h.2.1.1 h.2.1.2]
    rfl
  | succ n ih =>
    rw [List.range'_succ, List.foldl_cons, ih, pixel?_paintRow]
    simp only [Contains, size_foldl (fun b _ => size_put b _ _ _)]
    grind

/-- A filled buffer shows one pixel everywhere. -/
theorem pixel?_fill (b : PixelBuffer) (p : Rgba) (x y : Nat) :
    (b.fill p).pixel? x y = if b.Contains x y then some p else none := by
  unfold pixel?
  by_cases h : b.Contains x y
  · rw [dif_pos (show (b.fill p).Contains x y from h), if_pos h]
    simp [get, fill, Surface.offset, Nat.add_mod, Rgba.channel]
  · rw [dif_neg (show ¬ (b.fill p).Contains x y from h), if_neg h]

/-- A blank buffer shows empty pixels. -/
theorem pixel?_blank (s : Surface) (x y : Nat) :
    (blank s).pixel? x y =
      if x < s.width.toNat ∧ y < s.height.toNat then some .clear else none := by
  unfold pixel?
  by_cases h : x < s.width.toNat ∧ y < s.height.toNat
  · rw [dif_pos (show (blank s).Contains x y from h), if_pos h]
    simp [get, blank, Rgba.clear]
  · rw [dif_neg (show ¬ (blank s).Contains x y from h), if_neg h]

end PixelBuffer

end FractalRender
