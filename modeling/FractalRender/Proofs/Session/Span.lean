import Mathlib
import FractalRender.Proofs.Scalar.Exact
import FractalRender.Proofs.Session.View

/-!
# Sessions — resizing keeps the span of the view

The scale of a view times the width of the surface is the span of the plane that is seen across it,
where no width counts as one pixel.  In exact arithmetic a session that is only resized keeps its
span and its centre (`Scene.Alike`), whatever sizes it goes through and whatever its passes do on the
way.  The span, the centre and the width make out the view, so a session that comes back to its width
comes back to its view; and the default view for a width is the one of that span.

* `widthScale_exact`: a width as a number.
* `Scene.Alike.viewport_eq`: a view is known from its span, its centre and the width.
* `Scene.perform_alike`, `scene_after_alike`: what an operation and a history of resizes keep.
* `resizes_keepSpan`: these together, with the default views.
-/

namespace FractalRender

theorem widthScale_exact (width : UInt32) : (widthScale width : ℚ) = (max width.toNat 1 : ℕ) :=
  congrArg Nat.cast (toNat_max width 1)

theorem widthScale_pos (width : UInt32) : (0 : ℚ) < widthScale width := by
  rw [widthScale_exact]
  exact Nat.cast_pos.mpr (lt_max_of_lt_right one_pos)

namespace Scene

/-- The span of the plane across the surface, where no width counts as one pixel. -/
def span (c : Scene ℚ) : ℚ := c.viewport.unitsPerPixel * (max c.surface.width.toNat 1 : ℕ)

theorem span_eq (c : Scene ℚ) :
    c.span = c.viewport.unitsPerPixel * widthScale c.surface.width := by
  rw [span, widthScale_exact]

/-- The scenes show the same fractal around the same centre, across the same span. -/
structure Alike (c d : Scene ℚ) : Prop where
  config : c.config = d.config
  center : c.viewport.center = d.viewport.center
  span : c.span = d.span

namespace Alike

variable {c d e : Scene ℚ}

theorem refl (c : Scene ℚ) : c.Alike c := ⟨rfl, rfl, rfl⟩

theorem trans (h : c.Alike d) (h' : d.Alike e) : c.Alike e :=
  ⟨h.config.trans h'.config, h.center.trans h'.center, h.span.trans h'.span⟩

/-- **Alike scenes of one width have one view.** -/
theorem viewport_eq (h : c.Alike d) (width : c.surface.width = d.surface.width) :
    c.viewport = d.viewport := by
  have scale : c.viewport.unitsPerPixel = d.viewport.unitsPerPixel := by
    apply mul_right_cancel₀ (widthScale_pos d.surface.width).ne'
    rw [← span_eq, ← h.span, span_eq, width]
  exact congrArg₂ Viewport.mk h.center scale

end Alike

/-- The scene shows the default view of its configuration for its width. -/
def ShowsPreset (c : Scene ℚ) : Prop := c.viewport = .ofPreset c.config.preset c.surface.width

/-- A default view has the span of its preset on a surface of any width. -/
theorem ShowsPreset.span {c : Scene ℚ} (h : c.ShowsPreset) : c.span = c.config.preset.span := by
  rw [span_eq, h]
  exact div_mul_cancel₀ _ (widthScale_pos _).ne'

/-- A scene alike one with a default view shows the default view, for its own width. -/
theorem ShowsPreset.of_alike {c d : Scene ℚ} (hd : d.ShowsPreset) (h : c.Alike d) :
    c.ShowsPreset := by
  let c' : Scene ℚ := { c with viewport := .ofPreset c.config.preset c.surface.width }
  have hc' : c'.ShowsPreset := rfl
  have preset : c.config.preset = d.config.preset := congrArg Config.preset h.config
  have alike : c.Alike c' := by
    refine ⟨rfl, ?_, ?_⟩
    · rw [h.center, hd]
      exact congrArg ViewPreset.center preset.symm
    · rw [h.span, hd.span, hc'.span]
      exact congrArg ViewPreset.span preset.symm
  exact alike.viewport_eq rfl

end Scene

/-- The operation sets neither the configuration nor the view: it is a new size, a request, a step,
or about a compiled module. -/
def Operation.OnlyResizes {α : Type} : Operation α → Prop
  | .resize _ | .requestRender | .step | .attachBackend _ | .backendFailed _ => True
  | .setConfig _ | .setViewport _ | .resetView | .zoomAt _ _ | .pan _ => False

/-- **A new size keeps the span**: the scale is divided by the new width as it was by the old. -/
theorem Scene.resize_alike (c : Scene ℚ) (surface : Surface) :
    (c.perform (.resize surface)).Alike c := by
  refine ⟨rfl, rfl, ?_⟩
  rw [span_eq, span_eq]
  show c.viewport.unitsPerPixel * (widthScale c.surface.width / widthScale surface.width) *
    widthScale surface.width = _
  rw [mul_assoc, div_mul_cancel₀ _ (widthScale_pos _).ne']

theorem Scene.perform_alike (c : Scene ℚ) {op : Operation ℚ} (hop : op.OnlyResizes) :
    (c.perform op).Alike c := by
  cases op with
  | resize surface => exact c.resize_alike surface
  | requestRender | step | attachBackend m | backendFailed reason => exact .refl c
  | setConfig d | setViewport v | resetView | zoomAt p factor | pan drag => cases hop

namespace Session

variable [Elementary ℚ]

/-- What a session shows after a history of resizes is alike what it showed before. -/
theorem scene_after_alike (s : Session ℚ) {h : History ℚ}
    (hh : ∀ a ∈ h, a.operation.OnlyResizes) : (s.after h).scene.Alike s.scene := by
  induction h generalizing s with
  | nil => exact .refl _
  | cons a h ih =>
    obtain ⟨first, rest⟩ := List.forall_mem_cons.mp hh
    have step : (s.act a).session.scene.Alike s.scene := by
      rw [scene_act]
      exact s.scene.perform_alike first
    exact (ih _ rest).trans step

/-- **Resizing keeps what is seen.**  A session takes over the size that it is given.  Along a history
in which nothing but the size of the surface is set, with steps and requests in between, it keeps its
configuration, its centre and its span.  At the width it had it is back at its view.  After a start or
a reset of the view, it shows the default view of its configuration for the width that it has. -/
theorem resizes_keepSpan (h : History ℚ) (hh : ∀ a ∈ h, a.operation.OnlyResizes) :
    (∀ (s : Session ℚ) surface now, (s.resize surface now).session.surface = surface) ∧
    (∀ s : Session ℚ,
      (s.after h).config = s.config ∧
      (s.after h).viewport.center = s.viewport.center ∧
      (s.after h).viewport.unitsPerPixel * (max (s.after h).surface.width.toNat 1 : ℕ) =
        s.viewport.unitsPerPixel * (max s.surface.width.toNat 1 : ℕ) ∧
      ((s.after h).surface.width = s.surface.width → (s.after h).viewport = s.viewport)) ∧
    (∀ config surface options, ((new config surface options).after h).scene.ShowsPreset) ∧
    ∀ (s : Session ℚ) now, ((s.resetView now).session.after h).scene.ShowsPreset := by
  refine ⟨fun s surface now => congrArg Scene.surface (s.scene_act ⟨now, .resize surface⟩),
    fun s => ?_, fun config surface options => ?_, fun s now => ?_⟩
  · have alike := s.scene_after_alike hh
    exact ⟨alike.config, alike.center, alike.span, alike.viewport_eq⟩
  · have start : (new config surface options).scene.ShowsPreset := rfl
    exact start.of_alike (scene_after_alike _ hh)
  · have scene : (s.resetView now).session.scene = s.scene.perform .resetView :=
      s.scene_act ⟨now, .resetView⟩
    have reset : (s.resetView now).session.scene.ShowsPreset := by
      rw [scene]
      rfl
    exact reset.of_alike (scene_after_alike _ hh)

omit [Elementary ℚ] in
/-- A session that is hidden, and then shown again in two steps, is back at its first view.  It
draws nothing on the way, so any elementary functions will do. -/
theorem resizes_keepSpan_hidden :
    let _ : Elementary ℚ :=
      ⟨fun _ => 0, fun _ _ => 0, fun _ _ => 0, fun _ => 0, fun _ => 0⟩
    let s : Session ℚ := new .standard ⟨640, 480⟩ .standard
    let h : History ℚ :=
      [⟨0.0, .resize ⟨0, 0⟩⟩, ⟨1.0, .step⟩, ⟨2.0, .resize ⟨1024, 7⟩⟩, ⟨3.0, .resize ⟨640, 480⟩⟩]
    (∀ a ∈ h, a.operation.OnlyResizes) ∧ (s.after h).surface.width = s.surface.width ∧
      (s.after h).viewport = s.viewport := by
  intro _ s h
  have only : ∀ a ∈ h, a.operation.OnlyResizes := by
    simp only [h, List.forall_mem_cons, List.not_mem_nil, false_implies, implies_true, and_true]
    exact ⟨trivial, trivial, trivial, trivial⟩
  have width : (s.after h).surface.width = s.surface.width :=
    congrArg (fun c => c.surface.width) (s.scene_after h)
  exact ⟨only, width, ((resizes_keepSpan h only).2.1 s).2.2.2 width⟩

end Session

end FractalRender
