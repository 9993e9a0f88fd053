import FractalRender.Proofs.Scalar.Finite
import FractalRender.Proofs.Session.Transition

/-!
# Sessions — what moves the view

What a session is to show depends on the operations alone, and not on the passes that they start:
`Scene.perform` is what becomes of it.  A new configuration brings its own view along unless it has
the fractal of the old one and, for a Multibrot, the same power.  Powers are compared as numbers, so
a power that is no number is another one each time, even if nothing about it is new.

* `scene_act`, `scene_after`: what a session is to show after an action and after a history.
* `beq_iff_sameNumber`: when two doubles are compared equal.
* `KeepsView`: the configurations that leave the view as it is; `movesView_eq_false_iff` says that
  these are the ones.
* `viewport_after`: a history of such configurations and of operations that set no view leaves it.
* `setConfig_keepsView`: these together, with the views that configurations bring along.
-/

namespace FractalRender

/-! ### What is to be seen after an operation -/

section

variable {α : Type} [Scalar α]

/-- What a session is to show after an operation.  Views that are refused change nothing. -/
def Scene.perform (c : Scene α) : Operation α → Scene α
  | .setConfig d =>
    { c with
      config := d
      viewport :=
        if c.config.movesView d then .ofPreset d.preset c.surface.width else c.viewport }
  | .setViewport v => { c with viewport := v.validated.toOption.getD c.viewport }
  | .resetView => { c with viewport := .ofPreset c.config.preset c.surface.width }
  | .zoomAt p factor =>
    { c with viewport := (c.viewport.zoomAt p factor c.surface).toOption.getD c.viewport }
  | .pan drag => { c with viewport := c.viewport.pan drag }
  | .resize surface =>
    { c with
      viewport := c.viewport.rescaleForWidth c.surface.width surface.width
      surface }
  | .requestRender | .step | .attachBackend _ | .backendFailed _ => c

namespace Session

variable [Elementary α]

/-- **What a session is to show after an action** does not depend on its passes. -/
theorem scene_act (s : Session α) (a : Action α) :
    (s.act a).session.scene = s.scene.perform a.operation := by
  obtain ⟨now, op⟩ := a
  cases op with
  | requestRender => exact scene_requestRender s now
  | step => exact scene_step s now
  | setConfig c =>
      show (s.setConfig c now).session.scene = _
      rw [setConfig, Scene.perform]
      show _ = Scene.mk c (if s.config.movesView c then _ else s.viewport) s.surface
      split
      · exact scene_requestRender _ now
      · exact scene_requestRender _ now
  | setViewport v =>
      show (s.setViewport v now).session.scene = _
      rw [setViewport, Scene.perform]
      cases v.validated with
      | ok v => exact scene_requestRender _ now
      | error e => rfl
  | resetView => exact scene_requestRender _ now
  | zoomAt p factor =>
      show (s.zoomAt p factor now).session.scene = _
      rw [zoomAt, Scene.perform]
      show _ = Scene.mk s.config ((s.viewport.zoomAt p factor s.surface).toOption.getD _) s.surface
      cases s.viewport.zoomAt p factor s.surface with
      | ok v => exact scene_requestRender _ now
      | error e => rfl
  | pan drag => exact scene_requestRender _ now
  | resize surface => exact scene_requestRender _ now
  | attachBackend m => exact scene_requestRender _ now
  | backendFailed reason => rfl

/-- What a session is to show after a history. -/
theorem scene_after (s : Session α) (h : History α) :
    (s.after h).scene = h.foldl (fun c a => c.perform a.operation) s.scene := by
  induction h generalizing s with
  | nil => rfl
  | cons a h ih => rw [after_cons, ih, scene_act, List.foldl_cons]

end Session

end

/-! ### Numbers that are compared equal -/

/-- Two doubles are the same number: neither of them is NaN, and they have the same bits or are the
two zeros. -/
def SameNumber (x y : Float) : Prop :=
  x.isNaN = false ∧ y.isNaN = false ∧
    (x.toBits = y.toBits ∨ (x = 0.0 ∧ y = -0.0) ∨ (x = -0.0 ∧ y = 0.0))

theorem beq_iff_sameNumber {x y : Float} : (x == y) = true ↔ SameNumber x y := by
  rw [Float.beq_iff_ne_nan_and_eq, SameNumber, Float.isNaN_eq_decide_eq_nan,
    Float.isNaN_eq_decide_eq_nan, decide_eq_false_iff_not, decide_eq_false_iff_not, Float.toBits_inj]
  exact Iff.rfl

theorem SameNumber.symm {x y : Float} (h : SameNumber x y) : SameNumber y x :=
  beq_iff_sameNumber.mp (PartialEquivBEq.symm (beq_iff_sameNumber.mpr h))

theorem SameNumber.trans {x y z : Float} (h : SameNumber x y) (h' : SameNumber y z) :
    SameNumber x z :=
  beq_iff_sameNumber.mp
    (PartialEquivBEq.trans (beq_iff_sameNumber.mpr h) (beq_iff_sameNumber.mpr h'))

/-- A number is the same as itself, and NaN is not. -/
theorem sameNumber_self {x : Float} : SameNumber x x ↔ x.isNaN = false :=
  ⟨fun h => h.1, fun h => ⟨h, h, .inl rfl⟩⟩

/-! ### Configurations that leave the view as it is -/

namespace Config

/-- The new configuration has the fractal of the old one and, for a Multibrot, the same power. -/
def KeepsView (old new : Config Float) : Prop :=
  new.kind = old.kind ∧
    (new.kind = .multibrot → SameNumber new.multibrotPower old.multibrotPower)

/-- **A configuration brings no view along** exactly when it keeps the one there is. -/
theorem movesView_eq_false_iff {old new : Config Float} :
    old.movesView new = false ↔ old.KeepsView new := by
  rw [movesView, KeepsView, Bool.or_eq_false_iff, bne_eq_false_iff_eq, Bool.and_eq_false_iff,
    beq_eq_false_iff_ne, bne, Bool.not_eq_false', beq_iff_sameNumber, or_iff_not_imp_right, not_not]

theorem KeepsView.symm {c d : Config Float} (h : c.KeepsView d) : d.KeepsView c :=
  ⟨h.1.symm, fun hc => (h.2 (h.1.trans hc)).symm⟩

theorem KeepsView.trans {c d e : Config Float} (h : c.KeepsView d) (h' : d.KeepsView e) :
    c.KeepsView e :=
  ⟨h'.1.trans h.1, fun he => (h'.2 he).trans (h.2 (h'.1.symm.trans he))⟩

/-- A configuration keeps its own view, unless it is a Multibrot of a power that is no number. -/
theorem keepsView_self {c : Config Float} :
    c.KeepsView c ↔ (c.kind = .multibrot → c.multibrotPower.isNaN = false) := by
  rw [KeepsView, sameNumber_self]
  exact and_iff_right rfl

/-- A power that is infinite or no number is seen like the default power. -/
theorem preset_of_not_finite {c : Config Float} (h : c.multibrotPower.isFinite = false) :
    c.preset = { c with multibrotPower := defaultPower }.preset := by
  have same : multibrotPreset c.multibrotPower = multibrotPreset defaultPower := by
    have default : Scalar.isFinite (defaultPower : Float) = true := by decide +kernel
    have h : Scalar.isFinite c.multibrotPower = false := h
    rw [multibrotPreset, multibrotPreset, default, h]
    rfl
  unfold preset
  cases c.kind with
  | multibrot => exact same
  | _ => rfl

end Config

namespace Session

/-- **A new configuration** is taken over; the view is kept, or the default one of the configuration
for the surface. -/
theorem scene_setConfig [Elementary Float] (s : Session Float) (c : Config Float) (now : Float) :
    (s.config.KeepsView c → (s.setConfig c now).session.scene = ⟨c, s.viewport, s.surface⟩) ∧
      (¬ s.config.KeepsView c → (s.setConfig c now).session.scene =
        ⟨c, .ofPreset c.preset s.surface.width, s.surface⟩) := by
  have scene : (s.setConfig c now).session.scene =
      ⟨c, if s.config.movesView c then .ofPreset c.preset s.surface.width else s.viewport,
        s.surface⟩ := scene_act s ⟨now, .setConfig c⟩
  rw [← Config.movesView_eq_false_iff, Bool.not_eq_false, scene]
  exact ⟨fun h => by rw [if_neg (Bool.not_eq_true _ ▸ h)], fun h => by rw [if_pos h]⟩

end Session

/-! ### Histories that leave the view as it is -/

/-- The operation sets no view: it brings along a configuration that keeps the view of the given
one, or it is a request, a step, or about a compiled module. -/
def Operation.KeepsView (c : Config Float) : Operation Float → Prop
  | .setConfig d => c.KeepsView d
  | .requestRender | .step | .attachBackend _ | .backendFailed _ => True
  | .setViewport _ | .resetView | .zoomAt _ _ | .pan _ | .resize _ => False

/-- One operation of such a history leaves the view, and a configuration that those after it are to
be compared with. -/
theorem Scene.perform_keepsView {c : Scene Float} {d : Config Float}
    (h : c.config = d ∨ d.KeepsView c.config) {op : Operation Float} (hop : op.KeepsView d) :
    (c.perform op).viewport = c.viewport ∧
      ((c.perform op).config = d ∨ d.KeepsView (c.perform op).config) := by
  cases op with
  | setConfig e =>
      have hop : d.KeepsView e := hop
      have keeps : c.config.KeepsView e := by
        rcases h with rfl | h
        · exact hop
        · exact h.symm.trans hop
      refine ⟨if_neg ?_, .inr hop⟩
      rw [Config.movesView_eq_false_iff.mpr keeps]
      exact Bool.false_ne_true
  | requestRender | step | attachBackend m | backendFailed reason => exact ⟨rfl, h⟩
  | setViewport v | resetView | zoomAt p factor | pan drag | resize surface => cases hop

namespace Session

/-- **A whole history leaves the view** if each of its operations does. -/
theorem viewport_after [Elementary Float] (s : Session Float) {h : History Float}
    (hh : ∀ a ∈ h, a.operation.KeepsView s.config) : (s.after h).viewport = s.viewport := by
  -- by induction on the history, over all scenes with a configuration that keeps the same views
  have kept : ∀ (c : Scene Float), (c.config = s.config ∨ s.config.KeepsView c.config) →
      (h.foldl (fun c a => c.perform a.operation) c).viewport = c.viewport := by
    induction h with
    | nil => exact fun _ _ => rfl
    | cons a h ih =>
        intro c hc
        obtain ⟨first, rest⟩ := List.forall_mem_cons.mp hh
        obtain ⟨viewport, config⟩ := Scene.perform_keepsView hc first
        exact (ih rest _ config).trans viewport
  have scene := congrArg Scene.viewport (scene_after s h)
  exact scene.trans (kept s.scene (.inl rfl))

/-- **What moves the view.**  A session takes over the configuration that it is given.  If that is of
the same fractal and, for a Multibrot, of the same power, the view stays as it is, whatever else is
new about the configuration, and so it does along a whole history of such configurations; if not, the
view is the default one of the configuration on the surface of the session.  Equal bits make the same
power unless they are those of NaN: a Multibrot of that power keeps no view, not even its own.  The
default views of all powers that are not finite are those of the default power. -/
theorem setConfig_keepsView [Elementary Float] (s : Session Float) :
    (∀ c now,
      (s.config.KeepsView c → (s.setConfig c now).session.scene = ⟨c, s.viewport, s.surface⟩) ∧
      (¬ s.config.KeepsView c → (s.setConfig c now).session.scene =
        ⟨c, .ofPreset c.preset s.surface.width, s.surface⟩)) ∧
    (∀ c : Config Float, c.kind = s.config.kind →
      (c.kind ≠ .multibrot → s.config.KeepsView c) ∧
      (c.multibrotPower.toBits = s.config.multibrotPower.toBits →
        (s.config.KeepsView c ↔ (c.kind = .multibrot → c.multibrotPower.isNaN = false)))) ∧
    (∀ h, (∀ a ∈ h, a.operation.KeepsView s.config) → (s.after h).viewport = s.viewport) ∧
    ∀ c : Config Float, c.multibrotPower.isFinite = false →
      c.preset = { c with multibrotPower := defaultPower }.preset := by
  refine ⟨s.scene_setConfig, fun c kind => ⟨fun other => ⟨kind, fun h => absurd h other⟩, ?_⟩,
    fun h => s.viewport_after, fun c => Config.preset_of_not_finite⟩
  intro bits
  rw [Config.KeepsView, ← Float.toBits_inj.mp bits, sameNumber_self]
  exact and_iff_right kind

/-- A Multibrot of infinite power that was zoomed into keeps its view when it gets another palette,
and then its own configuration again. -/
theorem setConfig_keepsView_infinite :
    let c : Config Float :=
      { (.standard : Config Float) with kind := .multibrot, multibrotPower := 1.0 / 0.0 }
    let s : Session Float :=
      (new c ⟨2, 1⟩ .standard).after [⟨0.0, .zoomAt ⟨0.0, 0.0⟩ 2.0⟩]
    (s.after [⟨1.0, .setConfig { c with palette := .fire }⟩, ⟨2.0, .step⟩,
      ⟨3.0, .setConfig c⟩]).viewport = s.viewport := by
  intro c s
  have config : s.config = c := congrArg Scene.config (scene_after _ _)
  obtain ⟨-, same, history, -⟩ := setConfig_keepsView s
  have keeps (d : Config Float) (kind : d.kind = c.kind)
      (power : d.multibrotPower = c.multibrotPower) : s.config.KeepsView d := by
    refine ((same d (kind.trans (congrArg Config.kind config).symm)).2 ?_).mpr ?_
    · rw [power, config]
    · intro _
      rw [power]
      decide +kernel
  refine history _ ?_
  simp only [List.forall_mem_cons, List.not_mem_nil, false_implies, implies_true, and_true]
  exact ⟨keeps _ rfl rfl, trivial, keeps _ rfl rfl⟩

/-- A Multibrot of a power that is no number loses its view when the session is given its own
configuration once more. -/
theorem not_keepsView_nan :
    let c : Config Float :=
      { (.standard : Config Float) with kind := .multibrot, multibrotPower := 0.0 / 0.0 }
    let s : Session Float :=
      (new c ⟨1, 1⟩ .standard).after [⟨0.0, .setViewport ⟨⟨0.0, 0.0⟩, 1.0⟩⟩]
    s.config.multibrotPower.toBits = c.multibrotPower.toBits ∧ s.config.kind = c.kind ∧
      s.viewport.unitsPerPixel = 1.0 ∧ (s.setConfig c 1.0).session.viewport.unitsPerPixel = 1.8 := by
  decide +kernel

end Session

end FractalRender
