import FractalRender.Proofs.PointCloud.Image
import FractalRender.Proofs.Session.Duration
import FractalRender.Proofs.Session.Readback

/-!
# Sessions — pictures of point clouds

A pass over a point cloud starts on an empty buffer, and each of its steps is one batch of points.
So the picture with which it ends is the one of the whole orbit, whatever the size of the batches
was.

* `AtPassStart.exists_cloud`: the drawing with which such a pass starts.
* `Drawing.points_iterate_next`: its steps are batches of one sampler.
* `cloud_image`: what such a pass gives to the host at its end.
-/

namespace FractalRender

open PointCloud

@[simp] theorem PointCloud.Attractor.ofKind?_kind (system : Attractor) :
    Attractor.ofKind? system.kind = some system := by
  cases system <;> rfl

theorem PointCloud.Attractor.renderMode_kind (system : Attractor) :
    system.kind.renderMode = .pointCloud := by
  cases system <;> rfl

variable {α : Type} [Scalar α] [Elementary α]

/-- What a step of a point cloud does. -/
theorem Drawing.next_points {d : Drawing α} {sampler : Sampler α}
    (hw : d.pass.work = .points sampler) (o : Options α) :
    let a := sampler.advance o.pointsPerTick d.pass.viewport d.buffer
    (d.next o).pass.work = .points a.sampler ∧ (d.next o).buffer = a.buffer ∧
      d.isLast o = a.sampler.isDone ∧
      d.commits o = Commit.ofRows d.pass.surface (d.next o).buffer ⟨0, d.pass.surface.height⟩ := by
  have step : d.work o = _ := Pass.advance_points hw o d.buffer
  refine ⟨congrArg Worked.work step, congrArg Worked.buffer step, congrArg Worked.done step, ?_⟩
  rw [Drawing.commits, Drawing.next, step]

/-- **The steps of a point cloud** are batches of one sampler. -/
theorem Drawing.points_iterate_next {o : Options α} {d : Drawing α} {sampler : Sampler α}
    (hw : d.pass.work = .points sampler) (n : Nat) :
    ((Drawing.next o)^[n] d).pass.work = .points (Sampler.advances d.pass.viewport
        (List.replicate n o.pointsPerTick) sampler d.buffer).1 ∧
      ((Drawing.next o)^[n] d).buffer = (Sampler.advances d.pass.viewport
        (List.replicate n o.pointsPerTick) sampler d.buffer).2 := by
  induction n generalizing d sampler with
  | zero => exact ⟨hw, rfl⟩
  | succ n ih =>
      obtain ⟨hwork, hbuffer, -, -⟩ := Drawing.next_points hw o
      rw [Function.iterate_succ_apply, List.replicate_succ, Sampler.advances, ← hbuffer]
      exact ih hwork

/-- The last step of a point cloud is the one after whose batch all points are plotted. -/
theorem Drawing.isLast_iterate_points {o : Options α} {d : Drawing α} {sampler : Sampler α}
    (hw : d.pass.work = .points sampler) (n : Nat) :
    ((Drawing.next o)^[n] d).isLast o = (Sampler.advances d.pass.viewport
      (List.replicate (n + 1) o.pointsPerTick) sampler d.buffer).1.isDone := by
  obtain ⟨hlast, -, hdone, -⟩ := Drawing.next_points (Drawing.points_iterate_next hw n).1 o
  -- the sampler of the last step, once as the step leaves it and once as the batches do
  have hwork := (Drawing.points_iterate_next (o := o) hw (n + 1)).1
  rw [Function.iterate_succ_apply'] at hwork
  rw [← Work.points.inj (hlast.symm.trans hwork), hdone]

/-- **The last step of a point cloud** leaves its picture on the buffer. -/
theorem Drawing.showsCloud_of_isLast {o : Options α} {d : Drawing α} {system : Attractor}
    {cap : UInt32} {surface : Surface} (hw : d.pass.work = .points (.new system cap))
    (hb : d.buffer = .blank surface) {n : Nat} (hl : ((Drawing.next o)^[n] d).isLast o = true) :
    ((Drawing.next o)^[n + 1] d).buffer.size = surface ∧
      ShowsCloud system cap d.pass.viewport ((Drawing.next o)^[n + 1] d).buffer := by
  rw [Drawing.isLast_iterate_points hw, hb] at hl
  rw [(Drawing.points_iterate_next hw (n + 1)).2, hb]
  exact showsCloud_of_isDone hl

/-- All rows of a surface with pixels are given to the host. -/
theorem Commit.ofRows_all {surface : Surface} (h : surface.isEmpty = false) (b : PixelBuffer) :
    Commit.ofRows surface b ⟨0, surface.height⟩ = [⟨b, ⟨0, surface.height⟩⟩] := by
  obtain ⟨width, -⟩ := Bool.or_eq_false_iff.mp h
  have rows : RowRange.isEmpty ⟨0, surface.height⟩ = false := by
    have := height_pos h
    rw [RowRange.isEmpty, decide_eq_false_iff_not, UInt32.le_iff_toNat_le]
    exact Nat.not_le_of_gt this
  rw [Commit.ofRows, rows, width]
  rfl

namespace Session

/-- **A pass over a point cloud starts** with the sampler of its system on an empty buffer. -/
theorem AtPassStart.exists_cloud {s : Session α} (hs : s.AtPassStart) {system : Attractor}
    (hk : s.config.kind = system.kind) :
    ∃ d, s.drawing? = some d ∧ d.pass.scene = s.scene ∧ d.pass.surface.isEmpty = false ∧
      d.pass.work = .points (.new system s.config.maxIterations) ∧ d.buffer = .blank s.surface := by
  obtain ⟨r, now, hr, -, rfl⟩ := hs.exists_opening
  have hk : r.config.kind = system.kind := hk
  refine ⟨r.opening now, rfl, rfl, hr, ?_, ?_⟩
  · show (Plan.of r.config r.surface r.backend r.options).work = _
    simp only [Plan.of, hk, system.renderMode_kind, system.ofKind?_kind]
    rfl
  · refine (buffer_startPass r now).trans (if_pos ?_)
    rw [hk, system.renderMode_kind]

/-- **A pass over a point cloud ends with its picture.**  The last rows that it gives to the host
are all rows of a buffer that shows the point cloud, and that buffer is the session's as long as no
other pass has started. -/
theorem AtPassStart.showsCloud {s : Session α} (hs : s.AtPassStart) {system : Attractor}
    (hk : s.config.kind = system.kind) {h : History α} {status : Status}
    (hh : s.EndsPass h status) :
    ∃ m, (s.commits h).getLast? = some m ∧ m.rows = ⟨0, s.surface.height⟩ ∧
      m.buffer.size = s.surface ∧
      ShowsCloud system s.config.maxIterations s.viewport m.buffer ∧
      ((s.after h).pass = none → (s.after h).buffer = m.buffer) := by
  obtain ⟨d, hd, hscene, hf, hw, hb⟩ := hs.exists_cloud hk
  obtain ⟨-, hviewport, hsurface⟩ := Scene.mk.inj hscene
  obtain ⟨g, now, rfl, ⟨hdraw, hc, -⟩, hlast, -⟩ := hh.exists_last hd
  obtain ⟨size, shows⟩ := Drawing.showsCloud_of_isLast hw hb hlast
  obtain ⟨-, -, -, hcommits⟩ :=
    Drawing.next_points (Drawing.points_iterate_next hw (stepCount g)).1 s.options
  have surface : ((Drawing.next s.options)^[stepCount g] d).pass.surface = s.surface :=
    (congrArg Scene.surface (Drawing.scene_iterate_next _ d)).trans hsurface
  rw [surface, Commit.ofRows_all (hsurface ▸ hf)] at hcommits
  rw [Function.iterate_succ_apply'] at size shows
  rw [hviewport] at shows
  have last :
      ((Drawing.next s.options)^[stepCount g] d).isLast (s.after g).options = true := by
    rwa [options_after]
  refine ⟨⟨_, ⟨0, s.surface.height⟩⟩, ?_, rfl, size, shows, ?_⟩
  · rw [commits_append, commits_cons]
    show (s.commits g ++ (((s.after g).step now).result.commits ++ [])).getLast? = _
    rw [(step_last hdraw last now).1, options_after, hcommits]
    simp
  · intro idle
    rw [after_concat] at idle ⊢
    show ((s.after g).step now).session.buffer = _
    rcases idle_or_restarted (s.after g) with next | ⟨pending, nonempty⟩
    · rw [step_ended hdraw last next]
      show (Drawing.next (s.after g).options _).buffer = _
      rw [options_after]
    · have restarted := step_restarted hdraw last pending nonempty now
      cases (congrArg Session.pass restarted).symm.trans idle

/-- **The picture of a point cloud.**  Batches of any sizes on an empty buffer, until all points are
plotted, leave at each pixel what as many lights make of it as points of the orbit are shown there:
nothing without any, and else in each channel the increments of so many lights, up to the ceiling.
Points without a position, or with one at no pixel of the buffer, change nothing.  A pass over a
point cloud ends with this picture, whatever the size of its batches is. -/
theorem cloud_image (system : Attractor) (cap : UInt32) (v : Viewport Float) :
    (∀ size batches,
      (Sampler.advances v batches (.new system cap) (.blank size)).1.isDone = true →
      (Sampler.advances v batches (.new system cap) (.blank size)).2.size = size ∧
        ShowsCloud system cap v (Sampler.advances v batches (.new system cap) (.blank size)).2) ∧
    (∀ b z, ((v.toPixel z b.size).x.isNaN = true ∨ (v.toPixel z b.size).y.isNaN = true ∨
        ∀ x y, b.Contains x y → ¬ LandsOn v b.size x y z) →
      Sampler.lightPoint v system.tint b z = b) ∧
    ∀ s : Session Float, s.AtPassStart → s.config.kind = system.kind →
      s.config.maxIterations = cap → s.viewport = v → ∀ h status, s.EndsPass h status →
      ∃ m, (s.commits h).getLast? = some m ∧ m.rows = ⟨0, s.surface.height⟩ ∧
        m.buffer.size = s.surface ∧ ShowsCloud system cap v m.buffer ∧
        ((s.after h).pass = none → (s.after h).buffer = m.buffer) := by
  refine ⟨fun size batches done => showsCloud_of_isDone done, ?_, ?_⟩
  · intro b z h
    have nowhere {x : Float} {i : Int} (hx : x.isNaN = true) : Scalar.floor? x ≠ some i := by
      show Binary64.floor? x ≠ some i
      rw [Binary64.floor?, if_pos hx]
      nofun
    refine lightPoint_eq_self ?_
    rcases h with hx | hy | h
    · exact fun x y _ lands => nowhere hx lands.1
    · exact fun x y _ lands => nowhere hy lands.2
    · exact h
  · rintro s hs hk rfl rfl h status hh
    exact hs.showsCloud hk hh

/-- A point cloud of 30000 points is the same picture in batches of 7 and 30000 points as in a pass
with batches of 25000 that is dragged meanwhile. -/
theorem cloud_image_sierpinski :
    let s : Session Float :=
      ((new (.of .sierpinski 10 .aurora) ⟨2, 2⟩ .standard).act ⟨0.0, .requestRender⟩).session
    let h : History Float := [⟨1.0, .step⟩, ⟨2.0, .pan ⟨1.0, 0.0⟩⟩] ++ [⟨3.0, .step⟩]
    let b := (Sampler.advances s.viewport [7, 30000] (.new .sierpinski 10) (.blank ⟨2, 2⟩)).2
    ShowsCloud .sierpinski 10 s.viewport b ∧
      ∃ m, (s.commits h).getLast? = some m ∧ m.buffer = b := by
  intro s h b
  have hs : s.AtPassStart := ⟨new _ _ _, ⟨0.0, .requestRender⟩, ⟨_, _, _, [], rfl⟩, rfl, rfl⟩
  have two : s.passSteps = 2 := by
    show 30000 ⌈/⌉ 25000 = 2
    rw [Nat.ceilDiv_eq_add_pred_div]
  have ho : (Options.standard : Options Float).validate = .ok .standard := rfl
  obtain ⟨status, hh⟩ : ∃ status, s.EndsPass h status :=
    endsPass_of_passSteps hs ho (g := [⟨1.0, .step⟩, ⟨2.0, .pan ⟨1.0, 0.0⟩⟩])
      (by rw [two]; rfl) 3.0
  obtain ⟨plotted, -, drawn⟩ := cloud_image .sierpinski 10 s.viewport
  obtain ⟨size, shows⟩ := plotted ⟨2, 2⟩ [7, 30000]
    ((Sampler.isDone_advances _ _ _ _).mpr (by decide))
  obtain ⟨m, hm, -, size', shows', -⟩ := drawn s hs rfl rfl rfl h status hh
  exact ⟨shows, m, hm, shows'.eq (size'.trans size.symm) shows⟩

end Session

end FractalRender
