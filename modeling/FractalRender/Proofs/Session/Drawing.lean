import FractalRender.Proofs.Raster.Rows
import FractalRender.Session.Step
import Mathlib.Logic.Function.Iterate

/-!
# Sessions — a pass on its own

A *drawing* is a pass together with the buffer it is drawn on.  Its steps read nothing else of the
session but the options: `next` is the drawing after one step, `commits` the rows that the step
gives to the host, `film` the rows of several steps.

* `Sound.next`: what holds of every pass under way (`Sound`) is kept by a step.
* `Alike.work`, `Alike.film`: drawings of the same picture, on buffers that differ at most in what
  the pass is going to paint over (`Alike`), give the same rows to the host and end at the same
  step.
-/

namespace FractalRender

/-- A pass and the buffer it is drawn on. -/
structure Drawing (α : Type) where
  pass : Pass α
  buffer : PixelBuffer

/-! ### One step of a pass -/

namespace Pass

variable {α : Type} [Scalar α] [Elementary α]

/-- A step of a pass that is drawn pixel by pixel paints the next band. -/
theorem advance_pixels {p : Pass α} {k : ResolvedKernel α} {bands : Array PixelRect} {i : Nat}
    (hw : p.work = .pixels k bands i) (hi : i < bands.size) (o : Options α) (b : PixelBuffer) :
    p.advance o b = ⟨.pixels k bands (i + 1),
      b.paint bands[i] (pixelColor k p.config p.viewport b.size), bands[i].rows,
      decide (bands.size ≤ i + 1)⟩ := by
  simp [advance, hw, hi]

theorem advance_points {p : Pass α} {sampler : PointCloud.Sampler α}
    (hw : p.work = .points sampler) (o : Options α) (b : PixelBuffer) :
    p.advance o b = ⟨.points (sampler.advance o.pointsPerTick p.viewport b).sampler,
      (sampler.advance o.pointsPerTick p.viewport b).buffer, ⟨0, p.surface.height⟩,
      (sampler.advance o.pointsPerTick p.viewport b).sampler.isDone⟩ := by
  simp [advance, hw]

theorem advance_curve {p : Pass α} (hw : p.work = .curve) (o : Options α) (b : PixelBuffer) :
    p.advance o b = ⟨.curve, Koch.draw α b p.config.maxIterations p.config.palette,
      ⟨0, p.surface.height⟩, true⟩ := by
  simp [advance, hw]

theorem advance_unavailable {p : Pass α} (hw : p.work = .unavailable) (o : Options α)
    (b : PixelBuffer) :
    p.advance o b = ⟨.unavailable, b.fill .black, ⟨0, p.surface.height⟩, true⟩ := by
  simp [advance, hw]

@[simp] theorem size_advance (p : Pass α) (o : Options α) (b : PixelBuffer) :
    (p.advance o b).buffer.size = b.size := by
  cases hw : p.work with
  | pixels k bands i =>
      by_cases hi : i < bands.size
      · rw [advance_pixels hw hi, PixelBuffer.size_paint]
      · simp [advance, hw, hi]
  | points sampler => rw [advance_points hw, PointCloud.Sampler.size_advance]
  | curve => rw [advance_curve hw, Koch.size_draw]
  | unavailable => rw [advance_unavailable hw, PixelBuffer.size_fill]

/-- A step does not change what there is to draw with. -/
theorem isUnavailable_advance (p : Pass α) (o : Options α) (b : PixelBuffer) :
    Pass.isUnavailable { p with work := (p.advance o b).work } = p.isUnavailable := by
  cases hw : p.work with
  | pixels k bands i =>
      by_cases hi : i < bands.size
      · simp [advance_pixels hw hi, isUnavailable, hw]
      · simp [advance, isUnavailable, hw, hi]
  | points sampler => simp [advance_points hw, isUnavailable, hw]
  | curve => simp [advance_curve hw, isUnavailable, hw]
  | unavailable => simp [advance_unavailable hw, isUnavailable, hw]

theorem statusAt_advance (p : Pass α) (o : Options α) (b : PixelBuffer) (now : Float) :
    Pass.statusAt { p with work := (p.advance o b).work } now = p.statusAt now := by
  rw [statusAt, isUnavailable_advance, statusAt]

end Pass

namespace Drawing

variable {α : Type} [Scalar α] [Elementary α]

/-- What the next step leaves behind. -/
def work (o : Options α) (d : Drawing α) : Worked α := d.pass.advance o d.buffer

/-- The drawing after the next step. -/
def next (o : Options α) (d : Drawing α) : Drawing α :=
  ⟨{ d.pass with work := (d.work o).work }, (d.work o).buffer⟩

/-- The rows that the next step gives to the host. -/
def commits (o : Options α) (d : Drawing α) : List Commit :=
  Commit.ofRows d.pass.surface (d.work o).buffer (d.work o).rows

/-- The pass ends with the next step. -/
def isLast (o : Options α) (d : Drawing α) : Bool := (d.work o).done

/-- The rows that the next `n` steps give to the host. -/
def film (o : Options α) : Nat → Drawing α → List Commit
  | 0, _ => []
  | n + 1, d => d.commits o ++ film o n (d.next o)

theorem film_succ (o : Options α) (n : Nat) (d : Drawing α) :
    film o (n + 1) d = film o n d ++ ((next o)^[n] d).commits o := by
  induction n generalizing d with
  | zero => simp [film]
  | succ n ih =>
      rw [film, ih, film, List.append_assoc, Function.iterate_succ_apply]

/-- A step does not change the status of a pass at its end. -/
theorem statusAt_next (o : Options α) (d : Drawing α) (now : Float) :
    (d.next o).pass.statusAt now = d.pass.statusAt now :=
  d.pass.statusAt_advance o d.buffer now

/-- The steps of a pass do not change its status at the end. -/
theorem statusAt_iterate_next (o : Options α) (n : Nat) (d : Drawing α) (now : Float) :
    ((next o)^[n] d).pass.statusAt now = d.pass.statusAt now := by
  induction n generalizing d with
  | zero => rfl
  | succ n ih =>
      rw [Function.iterate_succ_apply, ih, statusAt_next]

/-! ### What holds of a pass under way -/

/-- What holds of a pass under way and its buffer: there is something to draw on, of the right
size; the status tells whether there is something to draw with; and a pass that is drawn pixel by
pixel has a band left and a kernel with a value everywhere. -/
structure Sound (o : Options α) (d : Drawing α) : Prop where
  surface : d.pass.surface.isEmpty = false
  size : d.buffer.size = d.pass.surface
  backend : d.pass.backend = .unavailable ↔ d.pass.isUnavailable = true
  bands : ∀ k bands i, d.pass.work = .pixels k bands i →
    bands = rowBands d.pass.surface o.rowsPerTick ∧ i < bands.size
  kernel : ∀ k bands i, d.pass.work = .pixels k bands i →
    k.source ≠ .unavailable ∧ ∀ z, ∃ v, k.evaluate d.pass.config.params z = some v

/-- A drawing is drawn pixel by pixel after a step when it was before it, with the next band. -/
theorem next_pixels {o : Options α} {d : Drawing α} {k : ResolvedKernel α}
    {bands : Array PixelRect} {j : Nat} (h : (d.next o).pass.work = .pixels k bands j) :
    ∃ i, d.pass.work = .pixels k bands i ∧
      (i < bands.size → j = i + 1 ∧ d.isLast o = decide (bands.size ≤ i + 1)) := by
  cases hd : d.pass.work with
  | pixels k' bands' i =>
      by_cases hi : i < bands'.size
      · simp only [next, work, Pass.advance_pixels hd hi, Work.pixels.injEq] at h
        obtain ⟨rfl, rfl, rfl⟩ := h
        exact ⟨i, rfl, fun _ => ⟨rfl, by simp only [isLast, work, Pass.advance_pixels hd hi]⟩⟩
      · simp only [next, work, Pass.advance, hd, Array.getElem?_eq_none (Nat.le_of_not_lt hi),
          Work.pixels.injEq] at h
        obtain ⟨rfl, rfl, rfl⟩ := h
        exact ⟨i, rfl, fun hlt => absurd hlt hi⟩
  | points sampler => simp [next, work, Pass.advance_points hd] at h
  | curve => simp [next, work, Pass.advance_curve hd] at h
  | unavailable => simp [next, work, Pass.advance_unavailable hd] at h

/-- A step that is not the last keeps what holds of a pass under way. -/
theorem Sound.next {o : Options α} {d : Drawing α} (h : Sound o d) (hl : d.isLast o = false) :
    Sound o (d.next o) where
  surface := h.surface
  size := (d.pass.size_advance o d.buffer).trans h.size
  backend := by
    rw [show (d.next o).pass.isUnavailable = d.pass.isUnavailable from
      d.pass.isUnavailable_advance o d.buffer]
    exact h.backend
  bands k bands j hw := by
    obtain ⟨i, hi, hj⟩ := next_pixels hw
    obtain ⟨hb, hlt⟩ := h.bands _ _ _ hi
    obtain ⟨rfl, he⟩ := hj hlt
    rw [hl] at he
    exact ⟨hb, Nat.lt_of_not_le (of_decide_eq_false he.symm)⟩
  kernel k bands j hw := by
    obtain ⟨i, hi, -⟩ := next_pixels hw
    exact h.kernel _ _ _ hi

/-! ### Drawings of the same picture -/

/-- The same picture, at the same step of its pass, on buffers of one size.  A point cloud adds up
light, so its buffers are the same; every other pass paints over what its buffer held. -/
structure Alike (d e : Drawing α) : Prop where
  config : d.pass.config = e.pass.config
  viewport : d.pass.viewport = e.pass.viewport
  surface : d.pass.surface = e.pass.surface
  backend : d.pass.backend = e.pass.backend
  work : d.pass.work = e.pass.work
  size : d.buffer.size = e.buffer.size
  light : ∀ sampler, d.pass.work = .points sampler → d.buffer = e.buffer

/-- What is seen after a band is painted: the band's rows in the new colours, the others as they
were. -/
theorem pixel?_paintBand {b : PixelBuffer} {s : Surface} (hs : b.size = s) (r : UInt32) {i : Nat}
    (hi : i < (rowBands s r).size) (color : Nat → Nat → Rgb) (x y : Nat) :
    (b.paint (rowBands s r)[i] color).pixel? x y =
      if b.Contains x y ∧ (rowBands s r)[i].rows.Contains y then some (color x y).solid
      else b.pixel? x y := by
  obtain ⟨hx, hw, hy, hh⟩ := getElem_rowBands s r hi
  obtain ⟨hstart, hstop⟩ := rows_rowBands s r hi
  rw [PixelBuffer.pixel?_paint, hx, hw, hh, hy]
  refine if_congr ?_ rfl rfl
  simp only [RowRange.Contains, hstart, hstop, PixelBuffer.Contains, hs, UInt32.toNat_zero]
  omega

/-- A step of two alike drawings that does not depend on the old buffer but for its size, or that
finds the same buffer, leaves the same behind. -/
theorem Alike.work_eq {d e : Drawing α} (h : Alike d e) (o : Options α)
    (hp : ∀ k bands i, d.pass.work ≠ .pixels k bands i) : d.work o = e.work o := by
  cases hw : d.pass.work with
  | pixels k bands i => exact absurd hw (hp k bands i)
  | points sampler =>
      rw [Drawing.work, Drawing.work, Pass.advance_points hw, Pass.advance_points (h.work ▸ hw),
        h.viewport, h.surface, h.light sampler hw]
  | curve =>
      rw [Drawing.work, Drawing.work, Pass.advance_curve hw, Pass.advance_curve (h.work ▸ hw),
        Koch.draw, Koch.draw, PixelBuffer.fill_congr h.size, h.size, h.config, h.surface]
  | unavailable =>
      rw [Drawing.work, Drawing.work, Pass.advance_unavailable hw,
        Pass.advance_unavailable (h.work ▸ hw), h.surface, PixelBuffer.fill_congr h.size]

/-- **One step of two alike drawings**: the same rows are ready with the same bytes, both end or
neither does, and what is left to do is the same. -/
theorem Alike.step {o : Options α} {d e : Drawing α} (h : Alike d e) (hd : Sound o d) :
    (d.work o).work = (e.work o).work ∧ (d.work o).rows = (e.work o).rows ∧
      (d.work o).done = (e.work o).done ∧
      (d.work o).buffer.rowBytes (d.work o).rows = (e.work o).buffer.rowBytes (d.work o).rows := by
  by_cases hp : ∃ k bands i, d.pass.work = .pixels k bands i
  · obtain ⟨k, bands, i, hw⟩ := hp
    obtain ⟨rfl, hi⟩ := hd.bands _ _ _ hw
    rw [Drawing.work, Drawing.work, Pass.advance_pixels hw hi, Pass.advance_pixels (h.work ▸ hw) hi,
      h.config, h.viewport, ← h.size]
    -- both paint the same band in the same colours, and its rows are all that is ready
    refine ⟨rfl, rfl, rfl, PixelBuffer.rowBytes_congr (by simpa using h.size) ?_⟩
    intro x y hc
    rw [pixel?_paintBand hd.size _ hi, pixel?_paintBand (h.size ▸ hd.size) _ hi]
    simp only [hc, and_true, PixelBuffer.Contains, ← h.size, PixelBuffer.pixel?]
    split <;> rfl
  · rw [h.work_eq o fun k bands i hw => hp ⟨k, bands, i, hw⟩]
    exact ⟨rfl, rfl, rfl, rfl⟩

/-- Alike drawings show the host the same. -/
theorem Alike.commits {o : Options α} {d e : Drawing α} (h : Alike d e) (hd : Sound o d) :
    (d.commits o).map Commit.shown = (e.commits o).map Commit.shown := by
  obtain ⟨-, hr, -, hb⟩ := h.step hd
  simp only [Drawing.commits, Commit.ofRows, h.surface, ← hr]
  split
  · rfl
  · simp only [List.map_cons, List.map_nil, Commit.shown, Commit.bytes, hb]

theorem Alike.isLast {o : Options α} {d e : Drawing α} (h : Alike d e) (hd : Sound o d) :
    d.isLast o = e.isLast o :=
  (h.step hd).2.2.1

/-- Alike drawings stay alike. -/
theorem Alike.next {o : Options α} {d e : Drawing α} (h : Alike d e) (hd : Sound o d) :
    Alike (d.next o) (e.next o) := by
  refine ⟨h.config, h.viewport, h.surface, h.backend, (h.step hd).1, ?_, ?_⟩
  · exact (d.pass.size_advance o _).trans (h.size.trans (e.pass.size_advance o _).symm)
  · intro sampler hs
    refine congrArg Worked.buffer (h.work_eq o fun k bands i hw => ?_)
    obtain ⟨rfl, hi⟩ := hd.bands _ _ _ hw
    simp [Drawing.next, Drawing.work, Pass.advance_pixels hw hi] at hs

/-- **The film of a picture.**  Alike drawings show the host the same in any number of steps of
which none but the last ends the pass. -/
theorem Alike.film {o : Options α} {d e : Drawing α} (h : Alike d e) (hd : Sound o d) (n : Nat)
    (hn : ∀ i < n, ((Drawing.next o)^[i] d).isLast o = false) :
    (Drawing.film o (n + 1) d).map Commit.shown = (Drawing.film o (n + 1) e).map Commit.shown ∧
      ((Drawing.next o)^[n] d).isLast o = ((Drawing.next o)^[n] e).isLast o := by
  induction n generalizing d e with
  | zero => exact ⟨by simpa [Drawing.film] using h.commits hd, h.isLast hd⟩
  | succ n ih =>
      have hl : d.isLast o = false := hn 0 (Nat.succ_pos n)
      obtain ⟨hf, he⟩ := ih (h.next hd) (hd.next hl) fun i hi => hn (i + 1) (Nat.succ_lt_succ hi)
      refine ⟨?_, he⟩
      show (d.commits o ++ Drawing.film o (n + 1) (d.next o)).map Commit.shown =
        (e.commits o ++ Drawing.film o (n + 1) (e.next o)).map Commit.shown
      rw [List.map_append, List.map_append, h.commits hd, hf]

end Drawing

end FractalRender
