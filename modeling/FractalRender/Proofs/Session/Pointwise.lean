import FractalRender.Proofs.Session.Invariant
import FractalRender.Scalar.Binary64
import Mathlib.Data.List.Basic

/-!
# Sessions — pictures drawn pixel by pixel

A pass of this kind paints one band at each step.  `Scene.ShownIn` says that a buffer shows a scene
in some rows: the palette's colour of the kernel's value at every pixel.  `Scene.DrawnBy` says that
the rows given to the host are a picture of the scene.

* `Painted.next`, `painted_iterate`: after so many steps so many bands show the scene, whatever the
  buffer held before.
* `Scene.drawnBy_of_tiles`: bands that tile the surface, each shown by every buffer from its own on,
  are a picture of the scene.
* `ended_eq_nil_iff`: the pass is under way until as many steps were done as there are bands.
* `pointwise_image`: what the pass gives the host is a picture of the scene it started with, the
  same for every band height and whatever was drawn before.
-/

namespace FractalRender

variable {α : Type} [Scalar α] [Elementary α]

/-! ### Painted bands -/

namespace Drawing

/-- The bands in which a drawing is painted. -/
abbrev bands (o : Options α) (d : Drawing α) : Array PixelRect :=
  rowBands d.pass.surface o.rowsPerTick

/-- The drawing `e`, after `n` steps of a pass that started as `d`: the first `n` bands show the
colours of their pixels. -/
structure Painted (o : Options α) (d : Drawing α) (k : ResolvedKernel α) (n : Nat)
    (e : Drawing α) : Prop where
  pass : e.pass = { d.pass with work := .pixels k (d.bands o) n }
  size : e.buffer.size = d.pass.surface
  shown : ∀ x y, e.buffer.Contains x y → y < n * (max o.rowsPerTick 1).toNat →
    e.buffer.pixel? x y =
      some (pixelColor k d.pass.config d.pass.viewport d.pass.surface x y).solid

variable {o : Options α} {d : Drawing α} {k : ResolvedKernel α}

/-- **One step paints the next band** and gives it to the host. -/
theorem Painted.next {n : Nat} {e : Drawing α} (h : Painted o d k n e)
    (hf : d.pass.surface.isEmpty = false) (hn : n < (d.bands o).size) :
    Painted o d k (n + 1) (e.next o) ∧
      e.commits o = [⟨(e.next o).buffer, (d.bands o)[n].rows⟩] ∧
      e.isLast o = decide ((d.bands o).size ≤ n + 1) := by
  have hw : e.pass.work = .pixels k (d.bands o) n := by rw [h.pass]
  have hwork := Pass.advance_pixels hw hn o e.buffer
  have hnext : e.next o = ⟨{ d.pass with work := .pixels k (d.bands o) (n + 1) },
      e.buffer.paint (d.bands o)[n]
        (pixelColor k d.pass.config d.pass.viewport d.pass.surface)⟩ := by
    rw [Drawing.next, Drawing.work, hwork, h.size, h.pass]
  refine ⟨⟨by rw [hnext], ?_, ?_⟩, ?_, ?_⟩
  · rw [hnext]
    exact (PixelBuffer.size_paint _ _ _).trans h.size
  · intro x y hc hy
    rw [hnext] at hc ⊢
    have hc : e.buffer.Contains x y := by simpa [PixelBuffer.Contains] using hc
    obtain ⟨hstart, hstop⟩ := rows_rowBands d.pass.surface o.rowsPerTick hn
    have hh : y < d.pass.surface.height.toNat := h.size ▸ hc.2
    rw [pixel?_paintBand h.size _ hn]
    split
    · rfl
    · next hnot =>
        -- the row lies above the band, so an earlier step painted it
        refine h.shown x y hc ?_
        have hnot : ¬ (d.bands o)[n].rows.Contains y :=
          fun hrows => hnot ⟨hc, hrows⟩
        rw [RowRange.Contains, hstart, hstop] at hnot
        omega
  · have hempty := isEmpty_rows_rowBands d.pass.surface o.rowsPerTick hn
    have hwidth : (d.pass.surface.width == 0) = false := (Bool.or_eq_false_iff.mp hf).1
    have hsurface : e.pass.surface = d.pass.surface := by rw [h.pass]
    rw [Drawing.commits, Commit.ofRows, hsurface, hwidth, Drawing.next, Drawing.work, hwork, hempty]
    rfl
  · rw [Drawing.isLast, Drawing.work, hwork]

/-- After `n` steps the first `n` bands are painted. -/
theorem painted_iterate (hd : Painted o d k 0 d) (hf : d.pass.surface.isEmpty = false) {n : Nat}
    (hn : n ≤ (d.bands o).size) :
    Painted o d k n ((Drawing.next o)^[n] d) := by
  induction n with
  | zero => exact hd
  | succ n ih =>
      rw [Function.iterate_succ_apply']
      exact ((ih (Nat.le_of_succ_le hn)).next hf hn).1

/-- **The rows that the first steps give to the host**: the band of each step, on the buffer that
the step leaves. -/
theorem film_painted (hd : Painted o d k 0 d) (hf : d.pass.surface.isEmpty = false) {n : Nat}
    (hn : n ≤ (d.bands o).size) :
    (film o n d).length = n ∧
      ∀ i (hi : i < (d.bands o).size), i < n →
        (film o n d)[i]? = some ⟨((Drawing.next o)^[i + 1] d).buffer, (d.bands o)[i].rows⟩ := by
  induction n with
  | zero => exact ⟨rfl, fun i _ hi => absurd hi (Nat.not_lt_zero i)⟩
  | succ n ih =>
      obtain ⟨hlen, hget⟩ := ih (Nat.le_of_succ_le hn)
      have hc := ((painted_iterate hd hf (Nat.le_of_succ_le hn)).next hf hn).2.1
      rw [film_succ, hc]
      refine ⟨by simp [hlen], fun i hi hlt => ?_⟩
      rcases Nat.lt_succ_iff_lt_or_eq.mp hlt with hlt | rfl
      · rw [List.getElem?_append_left (by rwa [hlen])]
        exact hget i hi hlt
      · rw [List.getElem?_append_right hlen.le, hlen, Nat.sub_self, Function.iterate_succ_apply']
        rfl

/-- The step that paints the last band is the last one. -/
theorem eq_of_isLast (hd : Painted o d k 0 d) (hf : d.pass.surface.isEmpty = false) {n : Nat}
    (hn : ∀ i < n, ((Drawing.next o)^[i] d).isLast o = false)
    (hlast : ((Drawing.next o)^[n] d).isLast o = true) :
    n + 1 = (d.bands o).size := by
  have hstep (i) (hi : i < (d.bands o).size) :=
    ((painted_iterate hd hf hi.le).next hf hi).2.2
  have hpos : 0 < (d.bands o).size := size_rowBands_pos hf o.rowsPerTick
  have hlt : n < (d.bands o).size := by
    -- else the step for the last band was an earlier one, and that ended the pass
    by_contra hge
    have := hstep ((d.bands o).size - 1) (by omega)
    rw [hn _ (by omega)] at this
    have := of_decide_eq_false this.symm
    omega
  have := of_decide_eq_true ((hstep n hlt).symm.trans hlast)
  omega

end Drawing

/-! ### What the host is given -/

/-- At every pixel of the rows the buffer shows the palette's colour of the kernel's value at the
pixel's point of the plane. -/
def Scene.ShownIn (c : Scene α) (k : ResolvedKernel α) (b : PixelBuffer) (rows : RowRange) : Prop :=
  ∀ x y, x < c.surface.width.toNat → y < c.surface.height.toNat → rows.Contains y →
    ∃ value, k.evaluate c.config.params
        (c.viewport.toComplex ⟨Scalar.ofNat x, Scalar.ofNat y⟩ c.surface) = some value ∧
      b.pixel? x y = some (c.config.palette.color
        (Kernel.colorValue c.config.kind value c.config.maxIterations)
        (Scalar.ofNat c.config.maxIterations.toNat)).solid

/-- The rows given to the host are a picture of the scene. -/
structure Scene.DrawnBy (c : Scene α) (k : ResolvedKernel α) (band : Nat) (cs : List Commit) :
    Prop where
  /-- They follow each other from the top to the bottom, none empty and each of the band height,
  the last possibly shorter. -/
  tiles : RowRange.Tiles band c.surface.height.toNat 0 (cs.map Commit.rows)
  once : ∀ y < c.surface.height.toNat,
    ∃! i : Nat, ∃ r, (cs.map Commit.rows)[i]? = some r ∧ r.Contains y
  size : ∀ m ∈ cs, m.buffer.size = c.surface
  /-- They show the kernel's values when they are given. -/
  shown : ∀ m ∈ cs, c.ShownIn k m.buffer m.rows
  /-- They stay as they were given. -/
  kept : ∀ (i j : Nat) (m l : Commit), i ≤ j → cs[i]? = some m → cs[j]? = some l →
    l.buffer.rowBytes m.rows = m.bytes
  /-- The last buffer is the whole picture, and a host that copies the rows it is given onto a
  frame has it too. -/
  image : ∃ m, cs.getLast? = some m ∧ c.ShownIn k m.buffer ⟨0, c.surface.height⟩ ∧
    ∀ frame : PixelBuffer, frame.size = c.surface →
      cs.foldl (fun f m => f.writeRows m.rows m.bytes) frame = m.buffer

/-- Buffers that show the same scene in some rows show the same there. -/
theorem Scene.ShownIn.pixel?_eq {c : Scene α} {k : ResolvedKernel α} {b b' : PixelBuffer}
    {rows : RowRange} (h : c.ShownIn k b rows) (h' : c.ShownIn k b' rows)
    (hs : b.size = c.surface) (hs' : b'.size = c.surface) {x y : Nat}
    (hy : y < c.surface.height.toNat → rows.Contains y) : b.pixel? x y = b'.pixel? x y := by
  by_cases hc : x < c.surface.width.toNat ∧ y < c.surface.height.toNat
  · obtain ⟨v, hv, hb⟩ := h x y hc.1 hc.2 (hy hc.2)
    obtain ⟨v', hv', hb'⟩ := h' x y hc.1 hc.2 (hy hc.2)
    cases Option.some.inj (hv.symm.trans hv')
    rw [hb, hb']
  · -- beyond the surface neither buffer shows anything
    rw [PixelBuffer.pixel?_eq_none (by rwa [PixelBuffer.Contains, hs]),
      PixelBuffer.pixel?_eq_none (by rwa [PixelBuffer.Contains, hs'])]

/-- Rows that show the same scene have the same bytes. -/
theorem Scene.ShownIn.rowBytes_eq {c : Scene α} {k : ResolvedKernel α} {b b' : PixelBuffer}
    {rows : RowRange} (h : c.ShownIn k b rows) (h' : c.ShownIn k b' rows)
    (hs : b.size = c.surface) (hs' : b'.size = c.surface) : b.rowBytes rows = b'.rowBytes rows :=
  PixelBuffer.rowBytes_congr (hs.trans hs'.symm) fun _ _ hy => h.pixel?_eq h' hs hs' fun _ => hy

/-- Buffers that show the same scene everywhere are the same. -/
theorem Scene.ShownIn.eq {c : Scene α} {k : ResolvedKernel α} {b b' : PixelBuffer}
    (h : c.ShownIn k b ⟨0, c.surface.height⟩) (h' : c.ShownIn k b' ⟨0, c.surface.height⟩)
    (hs : b.size = c.surface) (hs' : b'.size = c.surface) : b = b' :=
  PixelBuffer.ext_pixel? (hs.trans hs'.symm) fun _ y =>
    h.pixel?_eq h' hs hs' fun hy => ⟨Nat.zero_le y, hy⟩

/-- **A picture given in bands** that tile the surface, each shown by every buffer from its own on. -/
theorem Scene.drawnBy_of_tiles {c : Scene α} {k : ResolvedKernel α} {band : Nat}
    {cs : List Commit} (hf : c.surface.isEmpty = false)
    (tiles : RowRange.Tiles band c.surface.height.toNat 0 (cs.map Commit.rows))
    (size : ∀ m ∈ cs, m.buffer.size = c.surface)
    (later : ∀ (i j : Nat) (m l : Commit), i ≤ j → cs[i]? = some m → cs[j]? = some l →
      c.ShownIn k l.buffer m.rows) : c.DrawnBy k band cs := by
  have kept (i j : Nat) (m l : Commit) (hij : i ≤ j) (hm : cs[i]? = some m)
      (hl : cs[j]? = some l) : l.buffer.rowBytes m.rows = m.bytes :=
    (later i j m l hij hm hl).rowBytes_eq (later i i m m le_rfl hm hm)
      (size l (List.mem_of_getElem? hl)) (size m (List.mem_of_getElem? hm))
  have given (y : Nat) (hy : y < c.surface.height.toNat) :
      ∃ (i : Nat) (m : Commit), cs[i]? = some m ∧ m.rows.Contains y := by
    obtain ⟨i, ⟨r, hr, hc⟩, -⟩ := tiles.existsUnique (Nat.zero_le y) hy
    rw [List.getElem?_map, Option.map_eq_some_iff] at hr
    obtain ⟨m, hm, rfl⟩ := hr
    exact ⟨i, m, hm, hc⟩
  obtain ⟨last, hlast⟩ : ∃ m, cs.getLast? = some m := by
    obtain ⟨_, m, hm, -⟩ := given 0 (height_pos hf)
    exact ⟨_, List.getLast?_eq_some_getLast (List.ne_nil_of_mem (List.mem_of_getElem? hm))⟩
  -- the last buffer shows what every buffer before it showed
  have final {i : Nat} {m : Commit} (hm : cs[i]? = some m) :
      i ≤ cs.length - 1 ∧ cs[cs.length - 1]? = some last := by
    refine ⟨Nat.le_sub_one_of_lt (List.getElem?_eq_some_iff.mp hm).1, ?_⟩
    rw [← List.getLast?_eq_getElem?, hlast]
  refine ⟨tiles, fun y hy => tiles.existsUnique (Nat.zero_le y) hy, size, ?_, kept, last, hlast,
    ?_, ?_⟩
  · intro m hm
    obtain ⟨i, hi⟩ := List.mem_iff_getElem?.mp hm
    exact later i i m m le_rfl hi hi
  · intro x y hx hy _
    obtain ⟨i, m, hm, hc⟩ := given y hy
    exact later i _ m last (final hm).1 hm (final hm).2 x y hx hy hc
  · -- what is copied are rows of the last buffer, since the rows stay as they were given
    intro frame hframe
    have hsize := size last (List.mem_of_getLast? hlast)
    have hbytes (f : PixelBuffer) (m : Commit) (hm : m ∈ cs) :
        f.writeRows m.rows m.bytes = f.writeRows m.rows (last.buffer.rowBytes m.rows) := by
      obtain ⟨i, hi⟩ := List.mem_iff_getElem?.mp hm
      rw [kept i _ m last (final hi).1 hi (final hi).2]
    rw [List.foldl_ext _ _ frame hbytes, ← List.foldl_map (f := Commit.rows)
      (g := fun (f : PixelBuffer) r => f.writeRows r (last.buffer.rowBytes r))]
    refine PixelBuffer.foldl_writeRows (hframe.trans hsize.symm) _ (fun r hr => ?_) fun y hy => ?_
    · rw [hsize]
      exact ⟨(tiles.mem_bounds r hr).1.le, (tiles.mem_bounds r hr).2⟩
    · obtain ⟨i, m, hm, hc⟩ := given y (hsize ▸ hy)
      exact ⟨m.rows, List.mem_map_of_mem (List.mem_of_getElem? hm), hc⟩

/-- The colour of a pixel at which the kernel has a value. -/
theorem pixelColor_eq {k : ResolvedKernel α} {c : Config α} {v : Viewport α} {s : Surface}
    {x y : Nat} {value : α}
    (h : k.evaluate c.params (v.toComplex ⟨Scalar.ofNat x, Scalar.ofNat y⟩ s) = some value) :
    pixelColor k c v s x y =
      c.palette.color (Kernel.colorValue c.kind value c.maxIterations)
        (Scalar.ofNat c.maxIterations.toNat) := by
  simp only [pixelColor, h, Option.getD_some]

namespace Drawing

variable {o : Options α} {d : Drawing α} {k : ResolvedKernel α}

/-- Painted bands show the scene. -/
theorem Painted.shownIn {n : Nat} {e : Drawing α} (h : Painted o d k n e)
    (hk : ∀ z, ∃ v, k.evaluate d.pass.config.params z = some v) {rows : RowRange}
    (hr : ∀ y < d.pass.surface.height.toNat, rows.Contains y → y < n * (max o.rowsPerTick 1).toNat) :
    d.pass.scene.ShownIn k e.buffer rows := by
  intro x y hx hy hc
  obtain ⟨v, hv⟩ := hk (d.pass.viewport.toComplex ⟨Scalar.ofNat x, Scalar.ofNat y⟩ d.pass.surface)
  refine ⟨v, hv, ?_⟩
  rw [h.shown x y (by rw [PixelBuffer.Contains, h.size]; exact ⟨hx, hy⟩) (hr y hy hc),
    pixelColor_eq hv]
  rfl

/-- From the step that paints it on, a band shows the scene. -/
theorem shownIn_iterate (hd : Painted o d k 0 d) (hf : d.pass.surface.isEmpty = false)
    (hk : ∀ z, ∃ v, k.evaluate d.pass.config.params z = some v) {i j : Nat} (hij : i ≤ j)
    (hi : i < (d.bands o).size) (hj : j < (d.bands o).size) :
    d.pass.scene.ShownIn k ((Drawing.next o)^[j + 1] d).buffer (d.bands o)[i].rows := by
  refine (painted_iterate hd hf hj).shownIn hk fun y _ hc => ?_
  have hstop := (rows_rowBands d.pass.surface o.rowsPerTick hi).2
  have hy := hc.2
  rw [hstop] at hy
  exact (Nat.lt_min.mp hy).1.trans_le (Nat.mul_le_mul_right _ (Nat.succ_le_succ hij))

/-- **The rows of all steps are a picture of the scene.** -/
theorem film_drawnBy (hd : Painted o d k 0 d) (hf : d.pass.surface.isEmpty = false)
    (hk : ∀ z, ∃ v, k.evaluate d.pass.config.params z = some v) :
    d.pass.scene.DrawnBy k (max o.rowsPerTick 1).toNat (film o (d.bands o).size d) := by
  obtain ⟨hlen, hget⟩ := film_painted hd hf le_rfl
  have found {i : Nat} {m : Commit} (hm : (film o (d.bands o).size d)[i]? = some m) :
      ∃ hi : i < (d.bands o).size,
        m = ⟨((Drawing.next o)^[i + 1] d).buffer, (d.bands o)[i].rows⟩ := by
    have hi := (List.getElem?_eq_some_iff.mp hm).1
    rw [hlen] at hi
    exact ⟨hi, Option.some.inj (hm.symm.trans (hget i hi hi))⟩
  have hrows : (film o (d.bands o).size d).map Commit.rows =
      (d.bands o).toList.map PixelRect.rows := by
    refine List.ext_getElem (by simp [hlen]) fun i hi _ => ?_
    have hi : i < (d.bands o).size := by simpa [hlen] using hi
    have := hget i hi hi
    rw [List.getElem?_eq_some_iff] at this
    obtain ⟨_, hm⟩ := this
    simp [hm]
  refine Scene.drawnBy_of_tiles hf ?_ (fun m hm => ?_) fun i j m l hij hm hl => ?_
  · rw [hrows]
    exact tiles_rowBands _ _
  · obtain ⟨i, hm⟩ := List.mem_iff_getElem?.mp hm
    obtain ⟨hi, rfl⟩ := found hm
    exact (painted_iterate hd hf hi).size
  · obtain ⟨hi, rfl⟩ := found hm
    obtain ⟨hj, rfl⟩ := found hl
    exact shownIn_iterate hd hf hk hij hi hj

end Drawing

/-! ### Passes of a session -/

namespace Session

/-- The kernel with which a pass over the session draws. -/
def kernel (s : Session α) : ResolvedKernel α :=
  (resolveKernel s.config.kind s.backend s.options s.config.params).1

/-- A pass that draws pixel by pixel starts with nothing painted. -/
theorem AtPassStart.exists_painted {s : Session α} (hs : s.AtPassStart)
    (mode : s.config.kind.Pointwise) (source : s.kernel.source ≠ .unavailable) :
    ∃ d, s.drawing? = some d ∧ d.pass.scene = s.scene ∧ d.pass.surface.isEmpty = false ∧
      Drawing.Painted s.options d s.kernel 0 d := by
  obtain ⟨r, now, hr, -, rfl⟩ := hs.exists_opening
  have plan : Plan.of r.config r.surface r.backend r.options = _ :=
    Plan.of_pixels mode source r.surface
  refine ⟨r.opening now, rfl, rfl, hr, ?_, (sound_opening hr now).size, fun x y _ hy => ?_⟩
  · simp only [opening, plan]
    rfl
  · rw [Nat.zero_mul] at hy
    exact absurd hy (Nat.not_lt_zero y)

/-- **A pass that draws pixel by pixel is under way until as many steps were done as there are
bands.** -/
theorem ended_eq_nil_iff {s : Session α} (hs : s.AtPassStart) (mode : s.config.kind.Pointwise)
    (source : s.kernel.source ≠ .unavailable) (g : History α) :
    s.ended g = [] ↔ stepCount g < (rowBands s.surface s.options.rowsPerTick).size := by
  obtain ⟨d, hd, hscene, hf, hp⟩ := hs.exists_painted mode source
  have hsurface : d.pass.surface = s.surface := congrArg Scene.surface hscene
  have hlast (i) (hi : i < (d.bands s.options).size) :=
    ((Drawing.painted_iterate hp hf hi.le).next hf hi).2.2
  rw [show rowBands s.surface s.options.rowsPerTick = d.bands s.options by rw [← hsurface]]
  exact ended_eq_nil_iff_stepCount_lt hd (size_rowBands_pos hf s.options.rowsPerTick) hlast g

/-- The history whose last step is the one for the last band ends the pass. -/
theorem exists_endsPass {s : Session α} (hs : s.AtPassStart) (mode : s.config.kind.Pointwise)
    (source : s.kernel.source ≠ .unavailable) {g : History α}
    (hg : stepCount g + 1 = (rowBands s.surface s.options.rowsPerTick).size) (now : Float) :
    ∃ status, s.EndsPass (g ++ [⟨now, .step⟩]) status := by
  have he : s.ended g = [] := (ended_eq_nil_iff hs mode source g).mpr (by omega)
  obtain ⟨d, hd, hscene, hf, hp⟩ := hs.exists_painted mode source
  have hsurface : d.pass.surface = s.surface := congrArg Scene.surface hscene
  rw [show rowBands s.surface s.options.rowsPerTick = d.bands s.options by rw [← hsurface]] at hg
  have hlast := ((Drawing.painted_iterate hp hf (n := stepCount g) (by omega)).next hf
    (by omega)).2.2
  exact ⟨_, endsPass_of_isLast hd he (hlast.trans (decide_eq_true hg.ge)) now⟩

/-- **A pass that draws pixel by pixel gives the host a picture of the scene.** -/
theorem drawnBy_of_endsPass {s : Session α} (hs : s.AtPassStart) (mode : s.config.kind.Pointwise)
    (source : s.kernel.source ≠ .unavailable) {h : History α} {status : Status}
    (hh : s.EndsPass h status) :
    s.scene.DrawnBy s.kernel (max s.options.rowsPerTick 1).toNat (s.commits h) := by
  obtain ⟨d, hd, hscene, hf, hp⟩ := hs.exists_painted mode source
  obtain ⟨n, now, hn, hlast, hc, -⟩ := hh.exists_film hd
  have hk := resolve_evaluate mode source d.pass.config.params
  rw [hc, Drawing.eq_of_isLast hp hf hn hlast, ← hscene]
  exact Drawing.film_drawnBy hp hf hk

/-- **Passes that draw pixel by pixel draw the pointwise image.**  Such a pass takes as many steps
as there are bands.  What it gives the host is a picture of the scene with which it started, and
the picture depends neither on the band height nor on what the buffer held before. -/
theorem pointwise_image {s : Session α} (hs : s.AtPassStart) (mode : s.config.kind.Pointwise)
    (source : s.kernel.source ≠ .unavailable) :
    (∀ g, s.ended g = [] ↔ stepCount g < (rowBands s.surface s.options.rowsPerTick).size) ∧
    (∀ h status, s.EndsPass h status →
      s.scene.DrawnBy s.kernel (max s.options.rowsPerTick 1).toNat (s.commits h)) ∧
    (∀ (t : Session α) g h a b, t.AtPassStart → t.scene = s.scene → t.backend = s.backend →
      { t.options with rowsPerTick := s.options.rowsPerTick } = s.options →
      s.EndsPass g a → t.EndsPass h b →
      (t.commits h).getLast?.map Commit.buffer = (s.commits g).getLast?.map Commit.buffer) := by
  refine ⟨ended_eq_nil_iff hs mode source, fun h status hh => drawnBy_of_endsPass hs mode source hh,
    ?_⟩
  intro t g h a b ht scene backend options hg hh
  have hconfig : t.config = s.config := congrArg Scene.config scene
  have hkernel : t.kernel = s.kernel := by
    rw [kernel, kernel, hconfig, backend, ← options]
    rfl
  have picture := drawnBy_of_endsPass hs mode source hg
  have other := drawnBy_of_endsPass ht (hconfig ▸ mode) (hkernel ▸ source) hh
  rw [scene, hkernel] at other
  obtain ⟨m, hm, hshown, -⟩ := picture.image
  obtain ⟨l, hl, hshown', -⟩ := other.image
  rw [hm, hl, Option.map_some, Option.map_some]
  exact congrArg some (hshown'.eq hshown (other.size l (List.mem_of_getLast? hl))
    (picture.size m (List.mem_of_getLast? hm)))

/-- A Mandelbrot picture of three rows, in bands of two: it is dragged after the first step, and the
second step, for a band of one row, completes it.  A band height of 0 draws the same picture row by
row. -/
theorem pointwise_image_mandelbrot :
    let start (rows : UInt32) : Session Float :=
      ((new (.of .mandelbrot 3 .aurora) ⟨2, 3⟩ { Options.standard with rowsPerTick := rows }).act
        ⟨0.0, .requestRender⟩).session
    let g : History Float := [⟨1.0, .step⟩, ⟨2.0, .pan ⟨1.0, 0.0⟩⟩]
    let h : History Float := [⟨1.0, .step⟩, ⟨2.0, .step⟩]
    (start 2).ended g = [] ∧
      (start 2).scene.DrawnBy (start 2).kernel 2 ((start 2).commits (g ++ [⟨3.0, .step⟩])) ∧
      ((start 0).commits (h ++ [⟨3.0, .step⟩])).getLast?.map Commit.buffer =
        ((start 2).commits (g ++ [⟨3.0, .step⟩])).getLast?.map Commit.buffer := by
  intro start g h
  have hs (rows : UInt32) : (start rows).AtPassStart :=
    ⟨new _ _ _, ⟨0.0, .requestRender⟩, ⟨_, _, _, [], rfl⟩, rfl, rfl⟩
  have mode (rows : UInt32) : (start rows).config.kind.Pointwise := .inl rfl
  have source (rows : UInt32) : (start rows).kernel.source ≠ .unavailable := nofun
  have two : (rowBands (start 2).surface (start 2).options.rowsPerTick).size = 2 := by
    rw [size_rowBands]
    show bandCount (3 : UInt32).toNat (max (2 : UInt32) 1).toNat = 2
    decide
  have three : (rowBands (start 0).surface (start 0).options.rowsPerTick).size = 3 := by
    rw [size_rowBands]
    show bandCount (3 : UInt32).toNat (max (0 : UInt32) 1).toNat = 3
    decide
  obtain ⟨hended, hdrawn, hsame⟩ := pointwise_image (hs 2) (mode 2) (source 2)
  obtain ⟨a, ha⟩ := exists_endsPass (hs 2) (mode 2) (source 2) (g := g) (by rw [two]; rfl) 3.0
  obtain ⟨b, hb⟩ := exists_endsPass (hs 0) (mode 0) (source 0) (g := h) (by rw [three]; rfl) 3.0
  exact ⟨(hended g).mpr (by rw [two]; decide), hdrawn _ a ha,
    hsame (start 0) _ _ a b (hs 0) rfl rfl rfl ha hb⟩

end Session

end FractalRender
