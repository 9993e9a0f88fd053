import FractalRender.Proofs.Raster.Bands
import FractalRender.Proofs.Scalar.Normal
import FractalRender.Proofs.Session.Transition

/-!
# Sessions — the scale of the view

A scale can be used when it is finite and above 0.  Every operation that sets the scale of a session
checks it or takes it from a default view, except for a change of the surface's size: it multiplies
the scale by a quotient of widths and looks at nothing.

* `usable_ofPreset`: the scale of a default view can be used, on a surface of any width.
* `Scaled.act`: every action but a resize keeps usable scales, and so does a resize to a usable
  scale.
* `scaled_iff`: a history keeps usable scales exactly when each of its resizes is to one.
-/

namespace FractalRender

open Binary64

/-- The scale of the view is finite and above 0. -/
def Viewport.Usable {α : Type} [Scalar α] (v : Viewport α) : Prop :=
  isUsableScale v.unitsPerPixel = true

instance {α : Type} [Scalar α] (v : Viewport α) : Decidable v.Usable :=
  inferInstanceAs (Decidable (_ = true))

/-! ### Views that are checked, and default views -/

section

variable {α : Type} [Scalar α] {v v' : Viewport α}

/-- A view that was checked can be used. -/
theorem Viewport.usable_of_validated (h : v.validated = .ok v') : v'.Usable := by
  rw [validated, ofScale] at h
  split at h
  · next hu =>
      cases h
      exact hu
  · cases h

theorem Viewport.usable_of_zoomAt {p : Point α} {factor : α} {f : Surface}
    (h : v.zoomAt p factor f = .ok v') : v'.Usable := by
  rw [zoomAt] at h
  split at h
  · dsimp only at h
    split at h
    · next hu =>
        cases h
        exact hu
    · cases h
  · cases h

end

/-- The spans of the default views. -/
def presetSpans : List Float := [0.9, 1.0, 1.6, 1.8, 2.2, 3.0, 3.2, 3.5, 4.0, 5.0, 8.0, 9.0]

theorem span_mem_presetSpans (power : Float) (kind : Kind) :
    (kind.preset power).span ∈ presetSpans := by
  cases kind with
  | multibrot =>
      simp only [Kind.preset, multibrotPreset]
      split_ifs
      all_goals simp [presetSpans]
  | _ => simp [Kind.preset, presetSpans]

theorem isNormal_presetSpans : ∀ x ∈ presetSpans, ∃ e, IsNormal x e ∧ -53 ≤ e ∧ e ≤ -49 := by
  simp only [presetSpans, List.forall_mem_cons, List.not_mem_nil, false_implies, implies_true]
  and_intros
  all_goals first | trivial | exact ⟨_, ⟨_, _, rfl, by decide⟩, by decide, by decide⟩

/-- **A default view can be used**, on a surface of any width. -/
theorem Viewport.usable_ofPreset (c : Config Float) (width : UInt32) :
    (ofPreset c.preset width).Usable := by
  obtain ⟨e, hspan, lo, hi⟩ :=
    isNormal_presetSpans _ (span_mem_presetSpans c.multibrotPower c.kind)
  have hword := (max width 1).toNat_lt
  obtain ⟨f, hwidth, lo', hi'⟩ := IsNormal.ofNat (bandHeight_pos width) (hword.trans (by decide))
  obtain ⟨g, h⟩ := hspan.div hwidth (by omega) (by omega)
  obtain ⟨finite, pos⟩ := h.pos
  rw [Usable, isUsableScale, Bool.and_eq_true]
  exact ⟨finite, decide_eq_true pos⟩

/-! ### Sessions -/

namespace Session

section

variable {α : Type} [Scalar α]

/-- The view of the session can be used, and so can that of the pass under way. -/
structure Scaled (s : Session α) : Prop where
  view : s.viewport.Usable
  pass : ∀ p, s.pass = some p → p.viewport.Usable

/-- The view of the session on a surface of another size. -/
def resized (s : Session α) (surface : Surface) : Viewport α :=
  s.viewport.rescaleForWidth s.surface.width surface.width

/-- A session may be turned to a scene with a usable view. -/
theorem Scaled.turnTo {s : Session α} (h : Scaled s) (c : Scene α) (slot : BackendSlot α)
    (view : c.viewport.Usable) : Scaled (s.turnTo c slot) :=
  ⟨view, h.pass⟩

variable [Elementary α]

@[simp] theorem viewport_requestRender (s : Session α) (now : Float) :
    (s.requestRender now).session.viewport = s.viewport :=
  congrArg Scene.viewport (scene_requestRender s now)

/-- A pass has the view of the session. -/
theorem Scaled.startPass {s : Session α} (h : Scaled s) (now : Float) :
    Scaled (s.startPass now).1 where
  view := h.view
  pass p hp := by
    cases hp
    exact h.view

theorem Scaled.requestRender {s : Session α} (h : Scaled s) (now : Float) :
    Scaled (s.requestRender now).session := by
  unfold Session.requestRender
  split
  · exact h
  · split
    · split
      · exact ⟨h.view, h.pass⟩
      · exact h
    · exact h.startPass now

omit [Elementary α] in
theorem scaled_close {s : Session α} (view : s.viewport.Usable) (status : Status) :
    Scaled (s.close status) where
  view := view
  pass _ hp := by cases hp

theorem Scaled.step {s : Session α} (h : Scaled s) (now : Float) :
    Scaled (s.step now).session := by
  cases hd : s.drawing? with
  | none =>
      rw [step_idle (drawing?_eq_none.mp hd)]
      exact h
  | some d =>
      cases hl : d.isLast s.options with
      | false =>
          rw [step_advanced hd hl]
          refine ⟨h.view, fun p hp => ?_⟩
          cases hp
          exact h.pass d.pass (drawing?_eq_some.mp hd).1
      | true =>
          rcases idle_or_restarted s with next | ⟨pending, surface⟩
          · rw [step_ended hd hl next]
            exact scaled_close (s := s.carryOn d now) h.view _
          · rw [step_restarted hd hl pending surface]
            exact (scaled_close (s := s.carryOn d now) h.view _).startPass now

end

/-- **Every action keeps usable views**, but for a resize to a scale that cannot be used. -/
theorem Scaled.act {s : Session Float} (h : Scaled s) (a : Action Float)
    (ha : ∀ surface, a.operation = .resize surface → (s.resized surface).Usable) :
    Scaled (s.act a).session := by
  obtain ⟨now, op⟩ := a
  -- every operation but a step asks for a pass over a scene
  have asked (c : Scene Float) (slot : BackendSlot Float) (view : c.viewport.Usable) :
      Scaled ((s.turnTo c slot).requestRender now).session :=
    (h.turnTo c slot view).requestRender now
  cases op with
  | requestRender => exact h.requestRender now
  | step => exact h.step now
  | setConfig c =>
      show Scaled (s.setConfig c now).session
      unfold setConfig
      split
      · exact asked ⟨c, .ofPreset c.preset s.surface.width, s.surface⟩ s.backend
          (Viewport.usable_ofPreset c _)
      · exact asked ⟨c, s.viewport, s.surface⟩ s.backend h.view
  | setViewport v =>
      show Scaled (s.setViewport v now).session
      unfold setViewport
      split
      · next v' hv =>
          exact asked ⟨s.config, v', s.surface⟩ s.backend (Viewport.usable_of_validated hv)
      · exact h
  | resetView =>
      exact asked ⟨s.config, .ofPreset s.config.preset s.surface.width, s.surface⟩ s.backend
        (Viewport.usable_ofPreset s.config _)
  | zoomAt p factor =>
      show Scaled (s.zoomAt p factor now).session
      unfold zoomAt
      split
      · next v hv => exact asked ⟨s.config, v, s.surface⟩ s.backend (Viewport.usable_of_zoomAt hv)
      · exact h
  | pan drag => exact asked ⟨s.config, s.viewport.pan drag, s.surface⟩ s.backend h.view
  | resize surface =>
      exact asked ⟨s.config, s.resized surface, surface⟩ s.backend (ha surface rfl)
  | attachBackend m => exact asked s.scene (.loaded m) h.view
  | backendFailed reason => exact h.turnTo s.scene (.failed reason) h.view

theorem scaled_new (c : Config Float) (f : Surface) (o : Options Float) : Scaled (new c f o) where
  view := Viewport.usable_ofPreset c f.width
  pass _ hp := by cases hp

/-- **Usable views.**  However a session was made and whatever is done to it, its view and that of
the pass under way can be used at every point of the history, exactly when each resize of the
history is to a scale that can be used. -/
theorem scaled_iff (c : Config Float) (f : Surface) (o : Options Float) (h : History Float) :
    (∀ g t, h = g ++ t → Scaled ((new c f o).after g)) ↔
      ∀ g now surface t, h = g ++ ⟨now, .resize surface⟩ :: t →
        (((new c f o).after g).resized surface).Usable := by
  constructor
  · intro scaled g now surface t ht
    have hs := (scaled (g ++ [⟨now, .resize surface⟩]) t (by simp [ht])).view
    rw [after_concat] at hs
    generalize (new c f o).after g = s at hs ⊢
    have view :=
      viewport_requestRender (s.turnTo ⟨s.config, s.resized surface, surface⟩ s.backend) now
    rw [show s.resized surface = _ from view.symm]
    exact hs
  · intro usable g
    induction g using List.reverseRecOn with
    | nil => exact fun _ _ => scaled_new c f o
    | append_singleton g a ih =>
        intro t ht
        rw [after_concat]
        refine (ih (a :: t) (by simp [ht])).act a fun surface ha => ?_
        obtain ⟨now, op⟩ := a
        subst ha
        exact usable g now surface t (by simp [ht])

/-- The closest view that can be asked for, on a surface that becomes twice as wide: half its scale
is 0, and the next pass starts with that. -/
theorem not_scaled_resized :
    let s : Session Float := (new (.of .koch 3 .aurora) ⟨1, 1⟩ .standard).after
      [⟨0.0, .setViewport ⟨⟨0.0, 0.0⟩, 5e-324⟩⟩, ⟨1.0, .resize ⟨2, 1⟩⟩, ⟨2.0, .step⟩]
    ¬ s.viewport.Usable ∧ ∃ p ∈ s.pass, ¬ p.viewport.Usable := by
  decide +kernel

end Session

end FractalRender
