import FractalRender.Proofs.Session.Opening
import FractalRender.Scalar.Binary64

/-!
# Sessions — reading rows back

A step gives its rows to the host before it ends the pass.  A host that only takes note of their
numbers reads them from the buffer when the step is over, and by then the next pass may have
started on that buffer.

* `buffer_act`: what the buffer is after an action that gave rows to the host.
* `readable_iff`: the rows can be read back unless the action started a pass on a surface of another
  size, or one of a point cloud, which starts on an empty buffer.
-/

namespace FractalRender

/-- The rows can be read back from a buffer: it has the size of the one that was given, and the same
bytes in the rows. -/
def Commit.ReadableIn (m : Commit) (b : PixelBuffer) : Prop :=
  b.size = m.buffer.size ∧ b.rowBytes m.rows = m.bytes

/-- A buffer of empty pixels is blank. -/
theorem PixelBuffer.clear_eq_blank (b : PixelBuffer) : b.clear = blank b.size :=
  ext_pixel? rfl fun x y => by rw [clear, pixel?_fill, pixel?_blank]

theorem Kind.Pointwise.ne_pointCloud {k : Kind} (h : k.Pointwise) : k.renderMode ≠ .pointCloud := by
  rcases h with h | h
  all_goals
    rw [h]
    decide

variable {α : Type} [Scalar α] [Elementary α]

/-- The rows of a step are given on the buffer that the step leaves. -/
theorem Drawing.buffer_of_mem_commits {o : Options α} {d : Drawing α} {m : Commit}
    (hm : m ∈ d.commits o) : m.buffer = (d.next o).buffer := by
  rw [commits, Commit.ofRows] at hm
  split at hm
  · cases hm
  · rw [List.mem_singleton.mp hm]
    rfl

namespace Session

/-- The buffer on which a pass over a session starts: an empty one for a point cloud, and else the
old one if it has the right size. -/
theorem buffer_startPass (s : Session α) (now : Float) :
    (s.startPass now).1.buffer =
      if s.config.kind.renderMode = .pointCloud then .blank s.surface
      else s.buffer.ensureSize s.surface := by
  show (Plan.of s.config s.surface s.backend s.options).work.prepare _ = _
  have hshape := Plan.of_shape s.config s.surface s.backend s.options
  generalize Plan.of s.config s.surface s.backend s.options = plan at hshape ⊢
  cases hshape with
  | pixels notes mode source => exact (if_neg mode.ne_pointCloud).symm
  | points system mode attractor =>
      rw [if_pos mode]
      show (s.buffer.ensureSize s.surface).clear = _
      rw [PixelBuffer.clear_eq_blank, PixelBuffer.size_ensureSize]
  | curve mode =>
      rw [if_neg (by rw [mode]; decide)]
      rfl
  | unavailable notes mode source => exact (if_neg mode.ne_pointCloud).symm

/-- **The buffer after rows were given** is the one on which they were given, unless the action
started a pass. -/
theorem buffer_act {s : Session α} {a : Action α} {m : Commit}
    (hm : m ∈ (s.act a).result.commits) :
    (s.act a).session.buffer =
      if (s.entry a).startsPass then
        if s.config.kind.renderMode = .pointCloud then .blank s.surface
        else m.buffer.ensureSize s.surface
      else m.buffer := by
  revert hm
  unfold entry
  refine act_cases fun r t log tr => ?_
  intro hm
  cases tr with
  | advanced d op drawing last =>
      have hp := (drawing?_eq_some.mp drawing).1
      rw [if_neg (by simp [Entry.startsPass, Answer.finished?, isRendering, hp]),
        Drawing.buffer_of_mem_commits hm]
      rfl
  | ended d op drawing last next =>
      rw [if_neg (by simp [Entry.startsPass, isRendering, close]), Drawing.buffer_of_mem_commits hm]
      rfl
  | restarted d op drawing last pending surface =>
      refine Eq.trans ?_ (if_pos (Bool.or_true _)).symm
      rw [Drawing.buffer_of_mem_commits hm]
      exact buffer_startPass ((s.carryOn d a.now).close (d.pass.statusAt a.now)) a.now
  | _ => cases hm

/-- **Reading rows back.**  The rows given to the host can be read back when the action is over,
unless the action started a pass over a surface of another size, or one of a point cloud, for which
the buffer was emptied: then only rows that were empty when they were given are as they were. -/
theorem readable_iff {s : Session α} {a : Action α} {m : Commit}
    (hm : m ∈ (s.act a).result.commits) :
    m.ReadableIn (s.act a).session.buffer ↔
      ((s.entry a).startsPass = true → s.surface = m.buffer.size ∧
        (s.config.kind.renderMode = .pointCloud →
          (PixelBuffer.blank m.buffer.size).rowBytes m.rows = m.bytes)) := by
  rw [buffer_act hm, Commit.ReadableIn]
  cases (s.entry a).startsPass with
  | false => exact iff_of_true ⟨rfl, rfl⟩ nofun
  | true =>
      rw [if_pos rfl]
      by_cases mode : s.config.kind.renderMode = .pointCloud
      · rw [if_pos mode]
        constructor
        · rintro ⟨size, bytes⟩
          exact fun _ => ⟨size, fun _ => size ▸ bytes⟩
        · intro h
          obtain ⟨size, bytes⟩ := h rfl
          exact ⟨size, size ▸ bytes mode⟩
      · rw [if_neg mode, PixelBuffer.size_ensureSize]
        constructor
        · rintro ⟨size, -⟩
          exact fun _ => ⟨size, fun h => absurd h mode⟩
        · intro h
          obtain ⟨size, -⟩ := h rfl
          exact ⟨size, by rw [PixelBuffer.ensureSize, if_pos size.symm, Commit.bytes]⟩

/-- The colours are changed while a curve is drawn: the next pass starts with the step that
completes it, and its rows can be read back all the same. -/
theorem readable_recoloured :
    let s : Session Float := (new (.of .koch 3 .aurora) ⟨1, 1⟩ .standard).after
      [⟨0.0, .requestRender⟩, ⟨1.0, .setConfig (.of .koch 3 .fire)⟩]
    (s.entry ⟨2.0, .step⟩).startsPass = true ∧
      ∃ m, (s.act ⟨2.0, .step⟩).result.commits = [m] ∧
        m.ReadableIn (s.act ⟨2.0, .step⟩).session.buffer := by
  intro s
  have hm : (s.act ⟨2.0, .step⟩).result.commits = [⟨Koch.draw Float s.buffer 3 .aurora, ⟨0, 1⟩⟩] :=
    rfl
  refine ⟨rfl, _, hm, ?_⟩
  rw [readable_iff (hm ▸ List.mem_singleton_self _)]
  refine fun _ => ⟨?_, nofun⟩
  rw [Koch.size_draw]
  rfl

/-- The surface is resized while a curve is drawn: after the step that completes it the buffer has
the new size, and the rows that were given are gone. -/
theorem not_readable_resized :
    let s : Session Float := (new (.of .koch 3 .aurora) ⟨1, 1⟩ .standard).after
      [⟨0.0, .requestRender⟩, ⟨1.0, .resize ⟨2, 1⟩⟩]
    ∃ m, (s.act ⟨2.0, .step⟩).result.commits = [m] ∧
      ¬ m.ReadableIn (s.act ⟨2.0, .step⟩).session.buffer := by
  intro s
  have hm : (s.act ⟨2.0, .step⟩).result.commits = [⟨Koch.draw Float s.buffer 3 .aurora, ⟨0, 1⟩⟩] :=
    rfl
  have started : (s.entry ⟨2.0, .step⟩).startsPass = true := rfl
  have mode : s.config.kind.renderMode ≠ .pointCloud := nofun
  refine ⟨_, hm, fun h => ?_⟩
  have size := h.1
  rw [buffer_act (hm ▸ List.mem_singleton_self _), if_pos started, if_neg mode,
    PixelBuffer.size_ensureSize, Koch.size_draw] at size
  exact absurd (show (⟨2, 1⟩ : Surface) = ⟨1, 1⟩ from size) (by decide)

end Session

end FractalRender
