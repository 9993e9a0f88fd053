import Mathlib
import FractalRender.Proofs.Scalar.Exact
import FractalRender.Viewport

/-!
# The view in exact arithmetic — zooming and dragging

Over the rationals a view with a scale above 0 is a bijection between positions and points, and it is
known from its scale and from what it shows at one position.  A zoom divides the scale and keeps
what is shown under its position, so it is the only view that does both: zooms at one position
compose by multiplying their factors.  Drags compose by adding.

* `toPixel_toComplex`, `toComplex_toPixel`: positions and points correspond.
* `eq_of_toComplex_eq`: a view from its scale and one of its points.
* `zoomAt_eq_ok_iff`: what a zoom does; `zoomAt_zoomAt` and `foldlM_zoomAt` for several.
* `toComplex_pan`: what a drag does; `foldl_pan` for several.
* `zooms_and_drags`: the algebra of both.
-/

namespace FractalRender

/-- In exact arithmetic a scale can be used when it is above 0. -/
theorem isUsableScale_exact {a : ℚ} : isUsableScale a = true ↔ 0 < a := by
  have zero : (0.0 : ℚ) = 0 := by norm_num
  show (true && decide ((0.0 : ℚ) < a)) = true ↔ _
  rw [Bool.true_and, decide_eq_true_iff, zero]

namespace Viewport

variable {v w : Viewport ℚ} {p : Point ℚ} {s : Surface} {a b : ℚ}

/-! ### Positions and points -/

theorem toPixel_toComplex (scaled : 0 < v.unitsPerPixel) (p : Point ℚ) (s : Surface) :
    v.toPixel (v.toComplex p s) s = p := by
  have coordinate (c x m : ℚ) :
      (c + (x - m) * v.unitsPerPixel - c) / v.unitsPerPixel + m = x := by
    rw [add_sub_cancel_left, mul_div_cancel_right₀ _ scaled.ne', sub_add_cancel]
  exact congrArg₂ Point.mk (coordinate _ _ _) (coordinate _ _ _)

theorem toComplex_toPixel (scaled : 0 < v.unitsPerPixel) (z : Complex ℚ) (s : Surface) :
    v.toComplex (v.toPixel z s) s = z := by
  have coordinate (c x m : ℚ) :
      c + ((x - c) / v.unitsPerPixel + m - m) * v.unitsPerPixel = x := by
    rw [add_sub_cancel_right, div_mul_cancel₀ _ scaled.ne', add_sub_cancel]
  exact congrArg₂ Complex.mk (coordinate _ _ _) (coordinate _ _ _)

/-- **A view is known from its scale and from what it shows at one position.** -/
theorem eq_of_toComplex_eq (scale : v.unitsPerPixel = w.unitsPerPixel)
    (shown : v.toComplex p s = w.toComplex p s) : v = w := by
  obtain ⟨⟨re, im⟩, u⟩ := v
  obtain ⟨⟨re', im'⟩, u'⟩ := w
  obtain rfl : u = u' := scale
  obtain ⟨hre, him⟩ := Complex.mk.inj shown
  obtain rfl : re = re' := add_right_cancel hre
  obtain rfl : im = im' := add_right_cancel him
  rfl

/-! ### Zooming -/

/-- A zoom by a factor above 0 succeeds. -/
theorem zoomAt_eq_ok (scaled : 0 < v.unitsPerPixel) (positive : 0 < a) (p : Point ℚ)
    (s : Surface) :
    v.zoomAt p a s = .ok
      ⟨⟨(v.toComplex p s).re + (v.center.re - (v.toComplex p s).re) / a,
        (v.toComplex p s).im + (v.center.im - (v.toComplex p s).im) / a⟩,
      v.unitsPerPixel / a⟩ := by
  rw [zoomAt, if_pos (isUsableScale_exact.mpr positive),
    if_pos (isUsableScale_exact.mpr (div_pos scaled positive))]

/-- **What a zoom does**: it gives the view at the new scale that shows what was shown under its
position. -/
theorem zoomAt_eq_ok_iff (scaled : 0 < v.unitsPerPixel) (positive : 0 < a) :
    v.zoomAt p a s = .ok w ↔
      w.unitsPerPixel = v.unitsPerPixel / a ∧ w.toComplex p s = v.toComplex p s := by
  -- The centre is divided towards the anchor `c + d * u`, and so is the distance to it.
  have anchor (c d u : ℚ) : c + d * u + (c - (c + d * u)) / a + d * (u / a) = c + d * u := by
    field_simp
    ring
  rw [zoomAt_eq_ok scaled positive, Except.ok.injEq]
  constructor
  · rintro rfl
    exact ⟨rfl, congrArg₂ Complex.mk (anchor _ _ _) (anchor _ _ _)⟩
  · rintro ⟨scale, shown⟩
    refine eq_of_toComplex_eq (p := p) (s := s) scale.symm (Eq.trans ?_ shown.symm)
    exact congrArg₂ Complex.mk (anchor _ _ _) (anchor _ _ _)

/-- A zoom gives a view that can be zoomed again. -/
theorem exists_zoomAt (scaled : 0 < v.unitsPerPixel) (positive : 0 < a) (p : Point ℚ)
    (s : Surface) : ∃ w, v.zoomAt p a s = .ok w ∧ 0 < w.unitsPerPixel :=
  ⟨_, zoomAt_eq_ok scaled positive p s, div_pos scaled positive⟩

theorem zoomAt_one (scaled : 0 < v.unitsPerPixel) (p : Point ℚ) (s : Surface) :
    v.zoomAt p 1 s = .ok v :=
  (zoomAt_eq_ok_iff scaled one_pos).mpr ⟨(div_one _).symm, rfl⟩

/-- **Two zooms at one position are one zoom** by the product of their factors. -/
theorem zoomAt_zoomAt (scaled : 0 < v.unitsPerPixel) (ha : 0 < a) (hb : 0 < b)
    (zoomed : v.zoomAt p a s = .ok w) : w.zoomAt p b s = v.zoomAt p (a * b) s := by
  obtain ⟨x, once, -⟩ := exists_zoomAt scaled (mul_pos ha hb) p s
  obtain ⟨scale, shown⟩ := (zoomAt_eq_ok_iff scaled ha).mp zoomed
  obtain ⟨scale', shown'⟩ := (zoomAt_eq_ok_iff scaled (mul_pos ha hb)).mp once
  have scaled' : 0 < w.unitsPerPixel := scale ▸ div_pos scaled ha
  rw [once, zoomAt_eq_ok_iff scaled' hb]
  exact ⟨by rw [scale', scale, div_div], shown'.trans shown.symm⟩

/-- Zooms at one position, one after the other, are one zoom by the product of their factors. -/
theorem foldlM_zoomAt (scaled : 0 < v.unitsPerPixel) (p : Point ℚ) (s : Surface)
    {as : List ℚ} (positive : ∀ a ∈ as, 0 < a) :
    as.foldlM (fun w a => w.zoomAt p a s) v = v.zoomAt p as.prod s := by
  induction as generalizing v with
  | nil => exact (zoomAt_one scaled p s).symm
  | cons a as ih =>
    have head : 0 < a := positive a List.mem_cons_self
    have tail : ∀ b ∈ as, 0 < b := fun b hb => positive b (List.mem_cons_of_mem a hb)
    obtain ⟨w, zoomed, scaled'⟩ := exists_zoomAt scaled head p s
    rw [List.foldlM_cons, zoomed, List.prod_cons]
    exact (ih scaled' tail).trans (zoomAt_zoomAt scaled head (List.prod_pos tail) zoomed)

/-! ### Dragging -/

/-- **What a drag does**: what was shown at a position is shown as far from it as was dragged. -/
theorem toComplex_pan (v : Viewport ℚ) (d p : Point ℚ) (s : Surface) :
    (v.pan d).toComplex ⟨p.x + d.x, p.y + d.y⟩ s = v.toComplex p s := by
  have coordinate (c x m y u : ℚ) : c - y * u + (x + y - m) * u = c + (x - m) * u := by ring
  exact congrArg₂ Complex.mk (coordinate _ _ _ _ _) (coordinate _ _ _ _ _)

/-- **Drags add up.** -/
theorem foldl_pan (v : Viewport ℚ) (ds : List (Point ℚ)) :
    ds.foldl pan v = v.pan ⟨(ds.map Point.x).sum, (ds.map Point.y).sum⟩ := by
  induction ds generalizing v with
  | nil =>
    have still (c u : ℚ) : c = c - 0 * u := by ring
    exact congrArg₂ Viewport.mk (congrArg₂ Complex.mk (still _ _) (still _ _)) rfl
  | cons d ds ih =>
    -- One drag after another moves a coordinate of the centre by the sum of the two.
    have coordinate (c x y u : ℚ) : c - x * u - y * u = c - (x + y) * u := by ring
    rw [List.foldl_cons, ih]
    exact congrArg₂ Viewport.mk
      (congrArg₂ Complex.mk (coordinate _ _ _ _) (coordinate _ _ _ _)) rfl

/-- Drags that add up to nothing leave the view where it is. -/
theorem foldl_pan_eq_self {ds : List (Point ℚ)} (hx : (ds.map Point.x).sum = 0)
    (hy : (ds.map Point.y).sum = 0) (v : Viewport ℚ) : ds.foldl pan v = v := by
  rw [foldl_pan, hx, hy]
  exact (foldl_pan v []).symm

/-- **The algebra of zooming and dragging.**  A view with a scale above 0 puts positions and points
in correspondence.  A zoom divides the scale and keeps the point under its position, and two zooms at
one position are one.  Zooms at one position by factors of product 1 give the view back.  A drag takes
what is shown along, and drags of sum 0 give the view back. -/
theorem zooms_and_drags (scaled : 0 < v.unitsPerPixel) (s : Surface) :
    (∀ p, v.toPixel (v.toComplex p s) s = p) ∧
    (∀ z, v.toComplex (v.toPixel z s) s = z) ∧
    (∀ p a, 0 < a → ∃ w, v.zoomAt p a s = .ok w ∧
      w.unitsPerPixel = v.unitsPerPixel / a ∧ w.toComplex p s = v.toComplex p s ∧
      ∀ b, 0 < b → ∃ x, w.zoomAt p b s = .ok x ∧ v.zoomAt p (a * b) s = .ok x) ∧
    (∀ p (as : List ℚ), (∀ a ∈ as, 0 < a) → as.prod = 1 →
      as.foldlM (fun w a => w.zoomAt p a s) v = .ok v) ∧
    (∀ d p, (v.pan d).toComplex ⟨p.x + d.x, p.y + d.y⟩ s = v.toComplex p s) ∧
    (∀ ds : List (Point ℚ), (ds.map Point.x).sum = 0 → (ds.map Point.y).sum = 0 →
      ds.foldl pan v = v) := by
  refine ⟨fun p => toPixel_toComplex scaled p s, fun z => toComplex_toPixel scaled z s,
    fun p a ha => ?_, fun p as positive product => ?_, fun d p => toComplex_pan v d p s,
    fun ds hx hy => foldl_pan_eq_self hx hy v⟩
  · obtain ⟨w, zoomed, scaled'⟩ := exists_zoomAt scaled ha p s
    obtain ⟨scale, shown⟩ := (zoomAt_eq_ok_iff scaled ha).mp zoomed
    refine ⟨w, zoomed, scale, shown, fun b hb => ?_⟩
    obtain ⟨x, again, -⟩ := exists_zoomAt scaled' hb p s
    exact ⟨x, again, (zoomAt_zoomAt scaled ha hb zoomed).symm.trans again⟩
  · rw [foldlM_zoomAt scaled p s positive, product, zoomAt_one scaled p s]

/-- Zooming in three times by a half more, and out again in one step. -/
theorem zooms_and_drags_out_again :
    (0 < (1 / 200 : ℚ) ∧ (∀ a ∈ ([3 / 2, 3 / 2, 3 / 2, 8 / 27] : List ℚ), 0 < a) ∧
      ([3 / 2, 3 / 2, 3 / 2, 8 / 27] : List ℚ).prod = 1) ∧
    ([3 / 2, 3 / 2, 3 / 2, 8 / 27] : List ℚ).foldlM (fun w a => w.zoomAt ⟨17, 301⟩ a ⟨640, 480⟩)
      (⟨⟨-1 / 2, 0⟩, 1 / 200⟩ : Viewport ℚ) = .ok ⟨⟨-1 / 2, 0⟩, 1 / 200⟩ := by
  have positive : ∀ a ∈ ([3 / 2, 3 / 2, 3 / 2, 8 / 27] : List ℚ), 0 < a := by norm_num
  have product : ([3 / 2, 3 / 2, 3 / 2, 8 / 27] : List ℚ).prod = 1 := by norm_num
  have scaled : 0 < (1 / 200 : ℚ) := by norm_num
  obtain ⟨-, -, -, zooms, -⟩ := zooms_and_drags (v := ⟨⟨-1 / 2, 0⟩, 1 / 200⟩) scaled ⟨640, 480⟩
  exact ⟨⟨scaled, positive, product⟩, zooms ⟨17, 301⟩ _ positive product⟩

end Viewport

end FractalRender
