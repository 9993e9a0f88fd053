import Mathlib
import FractalRender.Koch.Drawing
import FractalRender.Proofs.Raster.Rows
import FractalRender.Scalar.Binary64

/-!
# Raster — what a stroke paints

A change of buffers *paints* a set of cells when the buffer shows the colour at the cells of the set
that lie on it, and what it showed before everywhere else (`Paints`).  Cells are counted by integers
of any size, so nothing is asked of the coordinates.  Changes that paint sets one after the other
paint the union (`Paints.foldl`); with this each of the three loops of a stroke is one step.

* `mem_samples`: the samples of a stroke, read off its positions (`IsSample`).
* `paints_stamp`: the brush paints its square.
* `paints_draw`: a stroke paints the squares of its samples (`cells`).
* `painted_cells`: what a buffer shows after a stroke, and after the Koch curve was drawn on it.
-/

namespace FractalRender.Stroke

variable {α : Type} [Scalar α]

/-! ### Samples -/

/-- Where a stroke is sampled: at its position if it has one only, and otherwise on the way from
each position to the next one, which is cut into equal parts. -/
def IsSample (ps : List (Point α)) (r : Point α) : Prop :=
  ps = [r] ∨ ∃ p q, [p, q] <:+: ps ∧ ∃ i ≤ parts p q, r = sample p q (parts p q) i

omit [Scalar α] in
/-- The positions, each with the next one. -/
theorem mem_zip_drop_iff {p q : Point α} {ps : List (Point α)} :
    (p, q) ∈ ps.zip (ps.drop 1) ↔ [p, q] <:+: ps := by
  induction ps with
  | nil => simp
  | cons a ps ih =>
      cases ps with
      | nil => simp [List.infix_cons_iff]
      | cons b ps =>
          rw [List.infix_cons_iff, ← ih]
          simp

theorem mem_segmentSamples {p q r : Point α} :
    r ∈ segmentSamples p q ↔ ∃ i ≤ parts p q, r = sample p q (parts p q) i := by
  simp only [segmentSamples, List.mem_map, List.mem_range, Nat.lt_succ_iff, eq_comm]

theorem mem_samples {ps : List (Point α)} {r : Point α} : r ∈ samples ps ↔ IsSample ps r := by
  have along : (∃ p q, [p, q] <:+: ps ∧ r ∈ segmentSamples p q) ↔
      r ∈ (ps.zip (ps.drop 1)).flatMap fun s => segmentSamples s.1 s.2 := by
    simp only [List.mem_flatMap, Prod.exists, mem_zip_drop_iff]
  simp only [IsSample, ← mem_segmentSamples]
  match ps with
  | [p] =>
      have single : ¬ ∃ a b, [a, b] <:+: [p] ∧ r ∈ segmentSamples a b := by
        rintro ⟨a, b, hab, -⟩
        exact absurd hab.length_le (by simp)
      rw [or_iff_left single, samples, List.mem_singleton, List.singleton_inj, eq_comm]
  | [] =>
      rw [along]
      simp [samples]
  | p :: q :: ps =>
      rw [along]
      simp [samples]

/-! ### Painting -/

/-- The change of buffers paints the cells of the set that lie on the buffer, and nothing else. -/
structure Paints (c : Rgb) (S : Set (Int × Int)) (f : PixelBuffer → PixelBuffer) : Prop where
  size : ∀ b, (f b).size = b.size
  inside : ∀ b (x y : Nat), b.Contains x y → ((x : Int), (y : Int)) ∈ S →
    (f b).pixel? x y = some c.solid
  outside : ∀ b (x y : Nat), ((x : Int), (y : Int)) ∉ S → (f b).pixel? x y = b.pixel? x y

namespace Paints

variable {c : Rgb}

theorem congr {S T : Set (Int × Int)} {f : PixelBuffer → PixelBuffer} (h : Paints c S f)
    (hST : S = T) : Paints c T f :=
  hST ▸ h

/-- Cells that no change paints stay as they are. -/
theorem foldl_outside {β : Type} {S : β → Set (Int × Int)} {f : PixelBuffer → β → PixelBuffer}
    (h : ∀ a, Paints c (S a) (f · a)) (l : List β) (b : PixelBuffer) (x y : Nat)
    (hz : ∀ a ∈ l, ((x : Int), (y : Int)) ∉ S a) : (l.foldl f b).pixel? x y = b.pixel? x y := by
  induction l generalizing b with
  | nil => rfl
  | cons a l ih =>
      rw [List.foldl_cons, ih _ fun a' ha' => hz a' (List.mem_cons_of_mem a ha')]
      exact (h a).outside b x y (hz a List.mem_cons_self)

/-- **Changes that paint sets one after the other** paint the union. -/
theorem foldl {β : Type} {S : β → Set (Int × Int)} {f : PixelBuffer → β → PixelBuffer}
    (h : ∀ a, Paints c (S a) (f · a)) (l : List β) :
    Paints c {z | ∃ a ∈ l, z ∈ S a} (l.foldl f) where
  size := PixelBuffer.size_foldl (fun b a => (h a).size b) l
  outside b x y hz := foldl_outside h l b x y fun a ha hza => hz ⟨a, ha, hza⟩
  inside b x y hb hz := by
    induction l generalizing b with
    | nil =>
        obtain ⟨a, ha, -⟩ := hz
        cases ha
    | cons a l ih =>
        rw [List.foldl_cons]
        by_cases later : ∃ a ∈ l, ((x : Int), (y : Int)) ∈ S a
        · refine ih (f b a) ?_ later
          rw [PixelBuffer.Contains, (h a).size b]
          exact hb
        · -- the last change to paint the cell is the first one of the list
          obtain ⟨a', ha', hza'⟩ := hz
          rcases List.mem_cons.mp ha' with rfl | ha'
          · rw [foldl_outside h l _ x y fun a ha hza => later ⟨a, ha, hza⟩]
            exact (h a').inside b x y hb hza'
          · exact absurd ⟨a', ha', hza'⟩ later

end Paints

/-! ### The brush -/

/-- One pixel is painted; one at a negative position is not on any buffer. -/
theorem paints_putInt (c : Rgb) (x y : Int) : Paints c {(x, y)} (putInt · x y c) where
  size b := size_putInt b x y c
  inside b x' y' hb hz := by
    obtain ⟨rfl, rfl⟩ := Prod.mk_inj.mp hz
    rw [putInt, if_pos ⟨Int.natCast_nonneg x', Int.natCast_nonneg y'⟩, PixelBuffer.pixel?_put]
    exact if_pos ⟨rfl, rfl, hb⟩
  outside b x' y' hz := by
    rw [putInt]
    split
    · next h =>
        rw [PixelBuffer.pixel?_put, if_neg]
        rintro ⟨rfl, rfl, -⟩
        exact hz (Prod.ext (Int.toNat_of_nonneg h.1) (Int.toNat_of_nonneg h.2))
    · rfl

/-- The cells of the brush at a sample. -/
def square (brush : Nat) (p : Point α) : Set (Int × Int) :=
  {z | (corner brush p.x ≤ z.1 ∧ z.1 < corner brush p.x + brush) ∧
    (corner brush p.y ≤ z.2 ∧ z.2 < corner brush p.y + brush)}

/-- A square is painted row by row, and a row cell by cell. -/
theorem square_eq (brush : Nat) (p : Point α) :
    {z | ∃ j ∈ List.range brush, z ∈ {z | ∃ i ∈ List.range brush,
      z ∈ ({(corner brush p.x + (i : Nat), corner brush p.y + (j : Nat))} : Set (Int × Int))}} =
    square brush p := by
  ext ⟨x, y⟩
  simp only [square, Set.mem_ofPred_eq, List.mem_range, Set.mem_singleton_iff, Prod.mk.injEq]
  constructor
  · rintro ⟨j, hj, i, hi, rfl, rfl⟩
    omega
  · rintro ⟨hx, hy⟩
    exact ⟨(y - corner brush p.y).toNat, by omega, (x - corner brush p.x).toNat, by omega,
      by omega, by omega⟩

/-- **The brush paints its square.** -/
theorem paints_stamp (brush : Nat) (c : Rgb) (p : Point α) :
    Paints c (square brush p) (stamp · brush c p) :=
  (Paints.foldl (fun j : Nat => Paints.foldl (fun i : Nat =>
    paints_putInt c (corner brush p.x + i) (corner brush p.y + j)) (List.range brush))
    (List.range brush)).congr (square_eq brush p)

/-! ### Strokes -/

/-- The cells that a stroke covers, on a buffer or not. -/
def cells (ps : List (Point α)) (width : α) : Set (Int × Int) :=
  {z | ∃ p, IsSample ps p ∧ z ∈ square (brushSize width) p}

instance (brush : Nat) (p : Point α) : DecidablePred (· ∈ square brush p) :=
  fun _ => inferInstanceAs (Decidable (_ ∧ _))

/-- The cells that a stroke covers, by its list of samples. -/
theorem cells_eq (ps : List (Point α)) (width : α) :
    cells ps width = {z | ∃ p ∈ samples ps, z ∈ square (brushSize width) p} := by
  simp only [cells, mem_samples]

instance (ps : List (Point α)) (width : α) : DecidablePred (· ∈ cells ps width) := fun z =>
  decidable_of_iff (∃ p ∈ samples ps, z ∈ square (brushSize width) p) (by rw [cells_eq]; rfl)

/-- **A stroke paints the squares of its samples.** -/
theorem paints_draw (ps : List (Point α)) (c : Rgb) (width : α) :
    Paints c (cells ps width) (draw · ps c width) := by
  rw [cells_eq]
  exact Paints.foldl (fun p => paints_stamp (brushSize width) c p) (samples ps)

/-- What a buffer shows after a stroke. -/
theorem pixel?_draw (b : PixelBuffer) (ps : List (Point α)) (c : Rgb) (width : α) (x y : Nat) :
    (draw b ps c width).pixel? x y =
      if b.Contains x y ∧ ((x : Int), (y : Int)) ∈ cells ps width then some c.solid
      else b.pixel? x y := by
  have paints := paints_draw ps c width
  split
  · next h => exact paints.inside b x y h.1 h.2
  · next h =>
      by_cases hz : ((x : Int), (y : Int)) ∈ cells ps width
      · -- a cell of the stroke that is not painted lies off the buffer
        have off : ¬ b.Contains x y := fun hb => h ⟨hb, hz⟩
        have off' : ¬ (draw b ps c width).Contains x y := by
          rwa [PixelBuffer.Contains, size_draw]
        rw [PixelBuffer.pixel?_eq_none off', PixelBuffer.pixel?_eq_none off]
      · exact paints.outside b x y hz

end FractalRender.Stroke

namespace FractalRender

open Stroke

variable {α : Type} [Scalar α] [Elementary α]

/-- The positions the Koch curve is stroked through for an iteration cap. -/
def Koch.curve (cap : UInt32) (s : Surface) : List (Point α) :=
  (polyline (generate (depthFor cap)) (UInt32.ofNat (depthFor cap)) s).toList

/-- The Koch curve is a stroke on black. -/
theorem Koch.draw_eq (b : PixelBuffer) (cap : UInt32) (palette : Palette) :
    Koch.draw α b cap palette =
      Stroke.draw (b.fill .black) (Koch.curve cap b.size : List (Point α))
        (Koch.strokeColor α cap palette) (Koch.strokeWidth b.size.width) := rfl

/-- **What a buffer shows after a stroke**: the colour at the cells of the stroke that lie on it,
and at all others what it showed before.  **After the Koch curve** was drawn on it, it shows the
colour of the stroke at the cells of the curve and black everywhere else, whatever it showed
before. -/
theorem painted_cells :
    (∀ (b : PixelBuffer) (ps : List (Point α)) (c : Rgb) (width : α),
      (Stroke.draw b ps c width).size = b.size ∧
      ∀ x y : Nat, (Stroke.draw b ps c width).pixel? x y =
        if b.Contains x y ∧ ((x : Int), (y : Int)) ∈ cells ps width then some c.solid
        else b.pixel? x y) ∧
    ∀ (b : PixelBuffer) (cap : UInt32) (palette : Palette),
      (Koch.draw α b cap palette).size = b.size ∧
      (∀ x y : Nat, (Koch.draw α b cap palette).pixel? x y =
        if b.Contains x y then
          some (if ((x : Int), (y : Int)) ∈
              cells (Koch.curve cap b.size : List (Point α)) (Koch.strokeWidth b.size.width) then
            (Koch.strokeColor α cap palette).solid else .black)
        else none) ∧
      Koch.draw α b cap palette = Koch.draw α (.blank b.size) cap palette := by
  refine ⟨fun b ps c width => ⟨size_draw b ps c width, pixel?_draw b ps c width⟩,
    fun b cap palette => ⟨Koch.size_draw b cap palette, fun x y => ?_, ?_⟩⟩
  · rw [Koch.draw_eq, pixel?_draw, PixelBuffer.pixel?_fill]
    by_cases hb : b.Contains x y
    · rw [if_pos hb, if_pos hb]
      by_cases hz : ((x : Int), (y : Int)) ∈
          cells (Koch.curve cap b.size : List (Point α)) (Koch.strokeWidth b.size.width)
      · rw [if_pos hz]
        exact if_pos ⟨hb, hz⟩
      · rw [if_neg hz]
        exact if_neg fun h => hz h.2
    · rw [if_neg hb, if_neg hb]
      exact if_neg fun h => hb h.1
  · rw [Koch.draw_eq, Koch.draw_eq, PixelBuffer.fill_congr (d := .blank b.size) rfl]
    rfl

example : ((3, 3) : Int × Int) ∈ cells [(⟨-4.0, -4.0⟩ : Point Float), ⟨12.0, 12.0⟩] 1.0 ∧
    ((3, 4) : Int × Int) ∉ cells [(⟨-4.0, -4.0⟩ : Point Float), ⟨12.0, 12.0⟩] 1.0 := by
  decide +kernel

end FractalRender
