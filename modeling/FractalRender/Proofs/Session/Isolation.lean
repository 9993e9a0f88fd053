import FractalRender.Proofs.Session.Invariant
import FractalRender.Scalar.Binary64

/-!
# Sessions — passes are isolated

What the host is given of a pass depends on what the session was when the pass started, and not on
what was drawn before or on what is done to the session while the pass is under way.

* `alike_opening`: passes over the same scene, with the same compiled module and options, start
  with drawings of the same picture.
* `commits_eq_of_same_start`: such passes give the host the same rows with the same bytes, and end
  with the same status but for the time.
-/

namespace FractalRender

namespace Session

variable {α : Type} [Scalar α] [Elementary α]

/-- **Passes that start over the same** draw the same picture, whatever the buffers held. -/
theorem alike_opening {r q : Session α} (scene : r.scene = q.scene) (backend : r.backend = q.backend)
    (options : r.options = q.options) (now later : Float) :
    Drawing.Alike (r.opening now) (q.opening later) := by
  obtain ⟨hc, hv, hf⟩ := Scene.mk.inj scene
  have hplan : Plan.of r.config r.surface r.backend r.options =
      Plan.of q.config q.surface q.backend q.options := by
    rw [hc, hf, backend, options]
  have hsize : (r.buffer.ensureSize r.surface).size = (q.buffer.ensureSize q.surface).size := by
    rw [PixelBuffer.size_ensureSize, PixelBuffer.size_ensureSize, hf]
  refine ⟨hc, hv, hf, congrArg Plan.backend hplan, congrArg Plan.work hplan, ?_, ?_⟩
  · exact (size_prepare _ _).trans (hsize.trans (size_prepare _ _).symm)
  · -- the buffer of a point cloud is cleared first
    intro sampler hw
    have hw' : (Plan.of q.config q.surface q.backend q.options).work = .points sampler := hplan ▸ hw
    show Work.prepare (Plan.of _ _ _ _).work _ = Work.prepare (Plan.of _ _ _ _).work _
    rw [show (Plan.of r.config r.surface r.backend r.options).work = .points sampler from hw, hw']
    exact PixelBuffer.fill_congr hsize .clear

/-- Sessions at the start of a pass over the same have drawings of the same picture. -/
theorem AtPassStart.alike {s t : Session α} (hs : s.AtPassStart) (ht : t.AtPassStart)
    (scene : s.scene = t.scene) (backend : s.backend = t.backend)
    (options : s.options = t.options) :
    ∃ d e, s.drawing? = some d ∧ t.drawing? = some e ∧ Drawing.Sound s.options d ∧
      Drawing.Alike d e := by
  obtain ⟨r, now, hr, -, rfl⟩ := hs.exists_opening
  obtain ⟨q, later, -, -, rfl⟩ := ht.exists_opening
  exact ⟨r.opening now, q.opening later, rfl, rfl, sound_opening hr now,
    alike_opening (r := r) (q := q) scene backend options now later⟩

/-- **Snapshot isolation.**  Take two sessions that start a pass over the same configuration, view
and surface, with the same compiled module and options, and go on with each in its own way until
the pass ends.  The host is given the same rows with the same bytes, and the passes end alike. -/
theorem commits_eq_of_same_start {s t : Session α} (hs : s.AtPassStart) (ht : t.AtPassStart)
    (config : s.config = t.config) (viewport : s.viewport = t.viewport)
    (surface : s.surface = t.surface) (backend : s.backend = t.backend)
    (options : s.options = t.options) {g h : History α} {a b : Status}
    (hg : s.EndsPass g a) (hh : t.EndsPass h b) :
    (s.commits g).map Commit.shown = (t.commits h).map Commit.shown ∧
      a.kind = b.kind ∧ a.backend = b.backend ∧ a.completed = b.completed := by
  have scene : s.scene = t.scene := by rw [Session.scene, config, viewport, surface, Session.scene]
  obtain ⟨d, e, hd, he, hsound, halike⟩ := hs.alike ht scene backend options
  obtain ⟨m, now, hm, hmlast, hcd, rfl⟩ := hg.exists_film hd
  obtain ⟨n, later, hn, hnlast, hce, rfl⟩ := hh.exists_film he
  rw [← options] at hn hnlast hce
  -- of alike drawings neither ends before the other
  have hmn : m = n := by
    rcases Nat.lt_trichotomy m n with hlt | heq | hlt
    · have := (halike.film hsound m hm).2
      rw [hmlast, hn m hlt] at this
      cases this
    · exact heq
    · have := (halike.film hsound n fun i hi => hm i (hi.trans hlt)).2
      rw [hnlast, hm n hlt] at this
      cases this
  subst hmn
  refine ⟨?_, ?_, halike.backend, ?_⟩
  · rw [hcd, hce]
    exact (halike.film hsound m hm).1
  · exact congrArg Config.kind halike.config
  · show (!Pass.isUnavailable _) = !Pass.isUnavailable _
    rw [Pass.isUnavailable, Pass.isUnavailable, halike.work]

/-- A curve drawn in a new session, and in one that drew it in another size before and is panned
while it draws it again. -/
theorem commits_eq_after_resize :
    let c : Config Float := .of .koch 3 .aurora
    let s := new c ⟨2, 2⟩ .standard
    let g : History Float :=
      [⟨0.0, .resize ⟨3, 1⟩⟩, ⟨1.0, .step⟩, ⟨2.0, .resize ⟨2, 2⟩⟩, ⟨3.0, .step⟩]
    let fresh := (s.act ⟨0.0, .requestRender⟩).session
    let used := ((s.after g).act ⟨4.0, .resetView⟩).session
    let h : History Float := [⟨5.0, .pan ⟨1.0, 0.0⟩⟩, ⟨6.0, .step⟩]
    fresh.EndsPass [⟨1.0, .step⟩] ⟨.koch, .interpreted, 1.0 - 0.0, true⟩ ∧
      used.EndsPass h ⟨.koch, .interpreted, 6.0 - 4.0, true⟩ ∧
      (fresh.commits [⟨1.0, .step⟩]).map Commit.shown = (used.commits h).map Commit.shown := by
  intro c s g fresh used h
  have hs : fresh.AtPassStart := ⟨s, ⟨0.0, .requestRender⟩, ⟨_, _, _, [], rfl⟩, rfl, rfl⟩
  have ht : used.AtPassStart := ⟨s.after g, ⟨4.0, .resetView⟩, ⟨_, _, _, g, rfl⟩, rfl, rfl⟩
  have hg : fresh.EndsPass [⟨1.0, .step⟩] ⟨.koch, .interpreted, 1.0 - 0.0, true⟩ :=
    ⟨[], 1.0, rfl, rfl, rfl⟩
  have hh : used.EndsPass h ⟨.koch, .interpreted, 6.0 - 4.0, true⟩ :=
    ⟨[⟨5.0, .pan ⟨1.0, 0.0⟩⟩], 6.0, rfl, rfl, rfl⟩
  exact ⟨hg, hh, (commits_eq_of_same_start hs ht rfl rfl rfl rfl rfl hg hh).1⟩

end Session

end FractalRender
