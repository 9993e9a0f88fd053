import FractalRender.Proofs.Backend.Native
import FractalRender.Scalar.Binary64
import Mathlib.Data.List.Forall2

/-!
# Sessions — the native module changes no picture

Two sessions are *twins* (`Session.Twins`) when they differ only in that one has no compiled module
and the other one has the native module, which draws the same with its own copy of the kernels.  The
host's clock may run differently for them: times are compared by a relation (`Timing`), which is
equality for one clock and says nothing for two.

* `Pass.Twins.advance`: a step of twin passes paints the same.
* `plan_twins`: twin sessions start twin passes, whether or not the module's export passed the
  check.
* `Twins.act`: what is done to both gets the same answers and leaves twins.
* `native_same_pictures`: so it is throughout any history.
-/

namespace FractalRender

/-- Times are compared by a relation that holds of equal ones and is kept by differences. -/
structure Timing (R : Float → Float → Prop) : Prop where
  refl : ∀ x, R x x
  sub : ∀ {x x' y y'}, R x x' → R y y' → R (x - y) (x' - y')

/-- Times of one clock. -/
theorem Timing.eq : Timing Eq := ⟨fun _ => rfl, fun hx hy => by rw [hx, hy]⟩

/-- Times of any two clocks. -/
theorem Timing.any : Timing fun _ _ => True := ⟨fun _ => trivial, fun _ _ => trivial⟩

/-! ### What twins have in common -/

/-- The same progress but for the time. -/
structure Progress.Twins (R : Float → Float → Prop) (p q : Progress) : Prop where
  completed : p.completed = q.completed
  total : p.total = q.total
  isComplete : p.isComplete = q.isComplete
  elapsed : R p.elapsedMs q.elapsedMs

/-- The same status but for the time and the backend. -/
structure Status.Twins (R : Float → Float → Prop) (a b : Status) : Prop where
  kind : a.kind = b.kind
  completed : a.completed = b.completed
  elapsed : R a.elapsedMs b.elapsedMs

/-- The same outcome of a step but for what twins may differ in. -/
inductive StepOutcome.Twins (R : Float → Float → Prop) : StepOutcome → StepOutcome → Prop where
  | idle : Twins R .idle .idle
  | more : Twins R .more .more
  | finished {a b : Status} (status : a.Twins R b) : Twins R (.finished a) (.finished b)

variable {α : Type}

/-- The same answer but for what twins may differ in.  Rows given to the host are the same. -/
inductive Answer.Twins (R : Float → Float → Prop) : Answer α → Answer α → Prop where
  | outcome (o : Outcome) : Twins R (.outcome o) (.outcome o)
  | refused (e : ViewportError α) : Twins R (.refused e) (.refused e)
  | stepped {x y : StepOutcome} (outcome : x.Twins R y) (commits : List Commit) :
      Twins R (.stepped ⟨x, commits⟩) (.stepped ⟨y, commits⟩)
  | done : Twins R .done .done

variable [Scalar α] [Elementary α]

/-- The same work, but for where the kernel comes from. -/
inductive Work.Twins : Work α → Work α → Prop where
  | pixels {k l : ResolvedKernel α} (values : ∀ p z, k.evaluate p z = l.evaluate p z)
      (bands : Array PixelRect) (next : Nat) : Twins (.pixels k bands next) (.pixels l bands next)
  | points (sampler : PointCloud.Sampler α) : Twins (.points sampler) (.points sampler)
  | curve : Twins .curve .curve
  | unavailable : Twins .unavailable .unavailable

/-- The same pass, but for where its kernel comes from and the time of its start. -/
structure Pass.Twins (R : Float → Float → Prop) (p q : Pass α) : Prop where
  scene : p.scene = q.scene
  work : p.work.Twins q.work
  started : R p.startedMs q.startedMs

/-- The first session has no compiled module and the second one has the native module; they show a
fractal that the library can draw itself, and are else the same but for the times. -/
structure Session.Twins (R : Float → Float → Prop) (s t : Session α) : Prop where
  notLoaded : s.backend = .notLoaded
  native : t.backend = .loaded (nativeModule α)
  kind : s.config.kind.hasInterpreted = true
  scene : s.scene = t.scene
  options : s.options = t.options
  buffer : s.buffer = t.buffer
  pending : s.pending = t.pending
  pass : Option.Rel (Pass.Twins R) s.pass t.pass
  progress : s.progress.Twins R t.progress
  status : Option.Rel (Status.Twins R) s.status t.status

/-- The same was done: twins before and after it, and twin answers. -/
structure Entry.Twins (R : Float → Float → Prop) (e f : Entry α) : Prop where
  before : e.before.Twins R f.before
  answer : e.reply.result.Twins R f.reply.result
  after : e.reply.session.Twins R f.reply.session

omit [Scalar α] [Elementary α] in
/-- Whether an operation leaves the compiled module alone and shows a fractal that the library can
draw itself. -/
def Operation.keepsTwins : Operation α → Bool
  | .setConfig c => c.kind.hasInterpreted
  | .attachBackend _ | .backendFailed _ => false
  | _ => true

variable {R : Float → Float → Prop}

/-! ### The work of twin passes -/

/-- Any work has itself for a twin. -/
theorem Work.Twins.refl (w : Work α) : w.Twins w := by
  cases w with
  | pixels k bands next => exact .pixels (fun _ _ => rfl) bands next
  | points sampler => exact .points sampler
  | curve => exact .curve
  | unavailable => exact .unavailable

theorem Work.Twins.prepare {w w' : Work α} (h : w.Twins w') (b : PixelBuffer) :
    w.prepare b = w'.prepare b := by
  cases h <;> rfl

/-- Kernels with the same values give a pixel the same colour. -/
theorem pixelColor_congr {k l : ResolvedKernel α}
    (values : ∀ p z, k.evaluate p z = l.evaluate p z) :
    pixelColor k = pixelColor l := by
  funext c v f x y
  simp only [pixelColor, values]

/-- What steps of twin passes leave behind. -/
structure Worked.Twins (x y : Worked α) : Prop where
  work : x.work.Twins y.work
  buffer : x.buffer = y.buffer
  rows : x.rows = y.rows
  done : x.done = y.done

/-- **A step of twin passes paints the same.** -/
theorem Pass.Twins.advance {p q : Pass α} (h : p.Twins R q) (o : Options α) (b : PixelBuffer) :
    (p.advance o b).Twins (q.advance o b) := by
  obtain ⟨c, v, f, used, started, w⟩ := p
  obtain ⟨c', v', f', used', started', w'⟩ := q
  obtain ⟨scene, work, -⟩ := h
  obtain ⟨rfl, rfl, rfl⟩ := Scene.mk.inj scene
  cases work with
  | pixels values bands next =>
      simp only [Pass.advance, pixelColor_congr values]
      cases bands[next]? with
      | none => exact ⟨.pixels values bands next, rfl, rfl, rfl⟩
      | some band => exact ⟨.pixels values bands (next + 1), rfl, rfl, rfl⟩
  | points sampler => exact ⟨.points _, rfl, rfl, rfl⟩
  | curve => exact ⟨.curve, rfl, rfl, rfl⟩
  | unavailable => exact ⟨.unavailable, rfl, rfl, rfl⟩

/-- Twin passes end with twin statuses. -/
theorem Pass.Twins.statusAt (hR : Timing R) {p q : Pass α} (h : p.Twins R q) {now later : Float}
    (time : R now later) : (p.statusAt now).Twins R (q.statusAt later) where
  kind := congrArg (·.config.kind) h.scene
  completed := by
    obtain ⟨c, v, f, used, started, w⟩ := p
    obtain ⟨c', v', f', used', started', w'⟩ := q
    have work : w.Twins w' := h.work
    cases work <;> rfl
  elapsed := hR.sub time h.started

/-- **Twin sessions start twin passes**: a plan for the native module is to do the same work in as
many steps as one without a module. -/
theorem plan_twins {c : Config α} (hi : c.kind.hasInterpreted = true) (f : Surface)
    (o : Options α) :
    (Plan.of c f .notLoaded o).work.Twins (Plan.of c f (.loaded (nativeModule α)) o).work ∧
      (Plan.of c f .notLoaded o).steps = (Plan.of c f (.loaded (nativeModule α)) o).steps := by
  have pointwise (mode : c.kind.Pointwise) :
      (Plan.of c f .notLoaded o).work.Twins (Plan.of c f (.loaded (nativeModule α)) o).work ∧
        (Plan.of c f .notLoaded o).steps = (Plan.of c f (.loaded (nativeModule α)) o).steps := by
    have own : (resolveKernel c.kind .notLoaded o c.params).1 = ⟨c.kind, .interpreted⟩ := by
      rw [resolve_notLoaded, fallback_of_hasInterpreted hi]
    obtain ⟨source, values⟩ := evaluate_native hi o c.params
    rw [Plan.of_pixels mode (by rw [own]; nofun), Plan.of_pixels mode source]
    refine ⟨.pixels (fun p z => ?_) _ _, rfl⟩
    rw [own, values]
    rfl
  cases mode : c.kind.renderMode with
  | escapeTime => exact pointwise (.inl mode)
  | dynamical => exact pointwise (.inr mode)
  | pointCloud | lSystem =>
      -- a picture that is not made pixel by pixel needs no kernel
      simp only [Plan.of, mode]
      exact ⟨.refl _, trivial⟩

/-! ### What is done to twin sessions -/

namespace Session

variable {s t : Session α} {now later : Float}

/-- Twins are shown another scene. -/
theorem Twins.turnTo (h : Twins R s t) {c : Scene α} (hc : c.config.kind.hasInterpreted = true) :
    Twins R (s.turnTo c s.backend) (t.turnTo c t.backend) where
  notLoaded := h.notLoaded
  native := h.native
  kind := hc
  scene := rfl
  options := h.options
  buffer := h.buffer
  pending := h.pending
  pass := h.pass
  progress := h.progress
  status := h.status

/-- Passes over twins start alike. -/
theorem Twins.startPass (hR : Timing R) (h : Twins R s t) (time : R now later) :
    Twins R (s.startPass now).1 (t.startPass later).1 := by
  obtain ⟨hc, -, hf⟩ := Scene.mk.inj h.scene
  obtain ⟨work, steps⟩ :
      (Plan.of s.config s.surface s.backend s.options).work.Twins
          (Plan.of t.config t.surface t.backend t.options).work ∧
        (Plan.of s.config s.surface s.backend s.options).steps =
          (Plan.of t.config t.surface t.backend t.options).steps := by
    rw [← hc, ← hf, ← h.options, h.notLoaded, h.native]
    exact plan_twins h.kind s.surface s.options
  refine { h with buffer := ?_, pass := .some ⟨h.scene, work, time⟩, progress := ?_, status := ?_ }
  · show Work.prepare _ (s.buffer.ensureSize s.surface) =
      Work.prepare _ (t.buffer.ensureSize t.surface)
    rw [work.prepare, h.buffer, hf]
  · exact ⟨rfl, steps, rfl, hR.refl _⟩
  · exact .some ⟨congrArg Config.kind hc, rfl, hR.refl _⟩

/-- Twins are at rest or draw twin passes on the same buffer. -/
theorem Twins.drawings (h : Twins R s t) :
    (s.pass = none ∧ t.pass = none) ∨
      ∃ d e, s.drawing? = some d ∧ t.drawing? = some e ∧ d.pass.Twins R e.pass ∧
        d.buffer = e.buffer := by
  have passes := h.pass
  generalize hs : s.pass = x at passes
  generalize ht : t.pass = y at passes
  cases passes with
  | none => exact .inl ⟨rfl, rfl⟩
  | @some p q twins =>
      exact .inr ⟨⟨p, s.buffer⟩, ⟨q, t.buffer⟩, drawing?_eq_some.mpr ⟨hs, rfl⟩,
        drawing?_eq_some.mpr ⟨ht, rfl⟩, twins, h.buffer⟩

/-- **A request to twins** has the same outcome. -/
theorem Twins.requestRender (hR : Timing R) (h : Twins R s t) (time : R now later) :
    Answer.Twins R (.outcome (s.requestRender now).result)
        (.outcome (t.requestRender later).result : Answer α) ∧
      Twins R (s.requestRender now).session (t.requestRender later).session := by
  have surface : t.surface = s.surface := (Scene.mk.inj h.scene).2.2.symm
  cases he : s.surface.isEmpty with
  | true =>
      rw [requestRender_empty he, requestRender_empty (surface ▸ he)]
      exact ⟨.outcome _, h⟩
  | false =>
      rcases h.drawings with ⟨hs, ht⟩ | ⟨d, e, hd, hd', -⟩
      · rw [requestRender_started he hs, requestRender_started (surface ▸ he) ht]
        exact ⟨.outcome _, h.startPass hR time⟩
      · have hs : s.pass.isSome = true := by rw [(drawing?_eq_some.mp hd).1]; rfl
        have ht : t.pass.isSome = true := by rw [(drawing?_eq_some.mp hd').1]; rfl
        cases ho : s.options.overlapPolicy with
        | coalesce =>
            rw [requestRender_deferred he hs ho,
              requestRender_deferred (surface ▸ he) ht (h.options ▸ ho)]
            exact ⟨.outcome _, { h with pending := rfl }⟩
        | drop =>
            rw [requestRender_dropped he hs ho,
              requestRender_dropped (surface ▸ he) ht (h.options ▸ ho)]
            exact ⟨.outcome _, h⟩

/-- A request to twins that are turned to another scene. -/
theorem Twins.request (hR : Timing R) (h : Twins R s t) (time : R now later) {c c' : Scene α}
    (same : c = c') (hc : c.config.kind.hasInterpreted = true) :
    Answer.Twins R (.outcome ((s.turnTo c s.backend).requestRender now).result)
        (.outcome ((t.turnTo c' t.backend).requestRender later).result : Answer α) ∧
      Twins R ((s.turnTo c s.backend).requestRender now).session
        ((t.turnTo c' t.backend).requestRender later).session := by
  subst same
  exact (h.turnTo hc).requestRender hR time

/-- Twins whose passes end are twins. -/
theorem Twins.close (h : Twins R s t) {a b : Status} (status : a.Twins R b) :
    Twins R (s.close a) (t.close b) :=
  { h with
    pending := rfl
    pass := .none
    progress := ⟨h.progress.total, h.progress.total, rfl, status.elapsed⟩
    status := .some status }

/-- **A step of twins** gives the same rows to the host. -/
theorem Twins.step (hR : Timing R) (h : Twins R s t) (time : R now later) :
    Answer.Twins R (.stepped (s.step now).result) (.stepped (t.step later).result : Answer α) ∧
      Twins R (s.step now).session (t.step later).session := by
  rcases h.drawings with ⟨hs, ht⟩ | ⟨d, e, hd, he, twins, buffer⟩
  · rw [step_idle hs, step_idle ht]
    exact ⟨.stepped .idle [], h⟩
  obtain ⟨work, painted, rows, done⟩ : (d.work s.options).Twins (e.work t.options) := by
    rw [Drawing.work, Drawing.work, ← buffer, ← h.options]
    exact twins.advance s.options d.buffer
  have surface : s.surface = t.surface := (Scene.mk.inj h.scene).2.2
  have commits : d.commits s.options = e.commits t.options := by
    rw [Drawing.commits, Drawing.commits, painted, rows, (Scene.mk.inj twins.scene).2.2]
  have next : Twins R (s.carryOn d now) (t.carryOn e later) :=
    { h with
      buffer := painted
      pass := .some ⟨twins.scene, work, twins.started⟩
      progress := ⟨by
        show min (s.progress.completed + 1) s.progress.total = _
        rw [h.progress.completed, h.progress.total]
        rfl, h.progress.total, h.progress.isComplete, hR.sub time twins.started⟩ }
  cases hl : d.isLast s.options with
  | false =>
      rw [step_advanced hd hl, step_advanced he (done.symm.trans hl), commits]
      exact ⟨.stepped .more _, next⟩
  | true =>
      have last : e.isLast t.options = true := done.symm.trans hl
      have status := twins.statusAt hR time
      rw [(step_last hd hl now).1, (step_last he last later).1, commits]
      refine ⟨.stepped (.finished status) _, ?_⟩
      rcases idle_or_restarted s with followed | ⟨pending, nonempty⟩
      · rw [step_ended hd hl followed, step_ended he last (h.pending ▸ surface ▸ followed)]
        exact next.close status
      · rw [step_restarted hd hl pending nonempty,
          step_restarted he last (h.pending ▸ pending) (surface ▸ nonempty)]
        exact (next.close status).startPass hR time

/-- **What is done to both of two twins** gets the same answers and leaves twins. -/
theorem Twins.act (hR : Timing R) (h : Twins R s t) {a b : Action α}
    (same : a.operation = b.operation) (keeps : a.operation.keepsTwins = true)
    (time : R a.now b.now) :
    (s.act a).result.Twins R (t.act b).result ∧ Twins R (s.act a).session (t.act b).session := by
  obtain ⟨now, op⟩ := a
  obtain ⟨later, op'⟩ := b
  cases same
  obtain ⟨hc, hv, hf⟩ := Scene.mk.inj h.scene
  cases op with
  | requestRender => exact h.requestRender hR time
  | step => exact h.step hR time
  | setConfig c =>
      simp only [Session.act, perform, answer, setConfig, hc]
      split
      · exact h.request hR time (c := ⟨c, .ofPreset c.preset s.surface.width, s.surface⟩)
          (by rw [hf]) keeps
      · exact h.request hR time (c := ⟨c, s.viewport, s.surface⟩) (by rw [hv, hf]) keeps
  | setViewport v =>
      simp only [Session.act, perform, answer, setViewport]
      cases v.validated with
      | ok v => exact h.request hR time (c := ⟨s.config, v, s.surface⟩) (by rw [hc, hf]) h.kind
      | error e => exact ⟨.refused e, h⟩
  | resetView =>
      exact h.request hR time
        (c := ⟨s.config, .ofPreset s.config.preset s.surface.width, s.surface⟩) (by rw [hc, hf])
        h.kind
  | zoomAt p factor =>
      simp only [Session.act, perform, answer, zoomAt, hv, hf]
      cases t.viewport.zoomAt p factor t.surface with
      | ok v => exact h.request hR time (c := ⟨s.config, v, t.surface⟩) (by rw [hc]) h.kind
      | error e => exact ⟨.refused e, h⟩
  | pan drag =>
      exact h.request hR time (c := ⟨s.config, s.viewport.pan drag, s.surface⟩)
        (by rw [hc, hv, hf]) h.kind
  | resize surface =>
      exact h.request hR time
        (c := ⟨s.config, s.viewport.rescaleForWidth s.surface.width surface.width, surface⟩)
        (by rw [hc, hv, hf]) h.kind
  | attachBackend m => cases keeps
  | backendFailed reason => cases keeps

/-- **Throughout a history** that is done to both, two twins give the same answers. -/
theorem Twins.entries (hR : Timing R) (h : Twins R s t) {g k : History α}
    (same : List.Forall₂ (fun a b => a.operation = b.operation ∧ R a.now b.now) g k)
    (keeps : ∀ a ∈ g, a.operation.keepsTwins = true) :
    List.Forall₂ (Entry.Twins R) (s.entries g) (t.entries k) := by
  induction same generalizing s t with
  | nil => exact .nil
  | cons hab _ ih =>
      obtain ⟨answer, after⟩ := h.act hR hab.1 (keeps _ List.mem_cons_self) hab.2
      exact .cons ⟨h, answer, after⟩ (ih after fun a ha => keeps a (List.mem_cons_of_mem _ ha))

/-- A session without a module and the same one with the native module are twins. -/
theorem twins_native (hR : Timing R) {s : Session α}
    (kind : s.config.kind.hasInterpreted = true) :
    Twins R { s with backend := .notLoaded } { s with backend := .loaded (nativeModule α) } where
  notLoaded := rfl
  native := rfl
  kind := kind
  scene := rfl
  options := rfl
  buffer := rfl
  pending := rfl
  pass := by
    show Option.Rel _ s.pass s.pass
    cases s.pass with
    | none => exact .none
    | some p => exact .some ⟨rfl, .refl _, hR.refl _⟩
  progress := ⟨rfl, rfl, rfl, hR.refl _⟩
  status := by
    show Option.Rel _ s.status s.status
    cases s.status with
    | none => exact .none
    | some a => exact .some ⟨rfl, rfl, hR.refl _⟩

/-- **The native module changes no picture.**  Take a session that shows a fractal that the library
can draw itself, once without a compiled module and once with the native module, and do the same to
both, without touching the module and with only such fractals.  They give the same answers and the
same rows, and are the same throughout but for the times and the backend that is shown, and with one
clock also in the times.  The reason is that the module and the one for web pages have the library's
own kernels. -/
theorem native_same_pictures {s : Session α} (kind : s.config.kind.hasInterpreted = true)
    {g h : History α} (same : g.map Action.operation = h.map Action.operation)
    (keeps : ∀ a ∈ g, a.operation.keepsTwins = true) :
    let own : Session α := { s with backend := .notLoaded }
    let native : Session α := { s with backend := .loaded (nativeModule α) }
    List.Forall₂ (Entry.Twins fun _ _ => True) (own.entries g) (native.entries h) ∧
      List.Forall₂ (Entry.Twins Eq) (own.entries g) (native.entries g) ∧
      ∀ k : Kind, k.hasInterpreted = true → ∀ (p : KernelParams α) (z : Complex α),
        (NativeModule.export? k.exportName).map (·.call p z) = Kernel.interpreted? k p z ∧
          (Browser.kernels.lookup k.exportName).map (·.call p z) = Kernel.interpreted? k p z := by
  intro own native
  refine ⟨?_, ?_, fun k hk p z => ⟨native_call hk p z, browser_call hk p z⟩⟩
  · refine (twins_native .any kind).entries .any ?_ keeps
    have same : List.Forall₂ (fun a b => a.operation = b.operation) g h :=
      List.forall₂_map_left_iff.mp <| List.forall₂_map_right_iff.mp <| by
        rw [same, List.forall₂_eq_eq_eq]
    exact same.imp fun _ _ ho => ⟨ho, trivial⟩
  · exact (twins_native .eq kind).entries .eq (List.forall₂_same.mpr fun _ _ => ⟨rfl, rfl⟩) keeps

/-- A Julia set of two pixels, drawn without a module and, by another clock, with the native one:
each says what it used. -/
theorem native_same_pictures_julia :
    let s : Session Float :=
      new (.of .julia 3 .aurora) ⟨2, 1⟩ { Options.standard with validateCompiled := false }
    let own : Session Float := { s with backend := .notLoaded }
    let native : Session Float := { s with backend := .loaded (nativeModule Float) }
    let g : History Float := [⟨0.0, .requestRender⟩, ⟨1.0, .step⟩]
    let h : History Float := [⟨5.0, .requestRender⟩, ⟨7.0, .step⟩]
    List.Forall₂ (Entry.Twins fun _ _ => True) (own.entries g) (native.entries h) ∧
      (own.after g).status.map Status.backend = some .interpreted ∧
      (native.after h).status.map Status.backend = some (.compiled "native") := by
  intro s own native g h
  have keeps : ∀ a ∈ g, a.operation.keepsTwins = true := by simp [g, Operation.keepsTwins]
  have same : g.map Action.operation = h.map Action.operation := by simp [g, h]
  exact ⟨(native_same_pictures (s := s) rfl same keeps).1, by decide +kernel, by decide +kernel⟩

end Session

end FractalRender
