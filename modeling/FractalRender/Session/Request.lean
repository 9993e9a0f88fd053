import FractalRender.Session.Basic

/-!
# Requests

Every operation on a session ends by asking for a fresh pass.  With no pass under way one starts;
else the request is deferred or dropped, as the options say.  A clock reading `now` in
milliseconds comes from the host.
-/

namespace FractalRender

variable {α : Type} [Scalar α] [Elementary α]

/-- What a pass is going to do. -/
structure Plan (α : Type) where
  work : Work α
  backend : BackendUsed
  /-- In how many steps. -/
  steps : UInt32
  notes : List (ResolveNote α)

/-- The plan of a pass over a surface. -/
def Plan.of (c : Config α) (surface : Surface) (slot : BackendSlot α) (o : Options α) : Plan α :=
  match c.kind.renderMode with
  | .escapeTime | .dynamical =>
    let (kernel, notes) := resolveKernel c.kind slot o c.params
    match kernel.source with
    | .unavailable => ⟨.unavailable, .unavailable, 1, notes⟩
    | .interpreted | .compiled _ _ =>
      let bands := rowBands surface o.rowsPerTick
      ⟨.pixels kernel bands 0, kernel.source.used, UInt32.ofNat bands.size, notes⟩
  | .pointCloud =>
    match PointCloud.Attractor.ofKind? c.kind with
    | some system =>
      let sampler := PointCloud.Sampler.new system c.maxIterations
      ⟨.points sampler, .interpreted, sampler.totalBatches o.pointsPerTick, []⟩
    | none => ⟨.unavailable, .unavailable, 1, []⟩
  | .lSystem => ⟨.curve, .interpreted, 1, []⟩

/-- The buffer that work starts on: point clouds add up light and need an empty one. -/
def Work.prepare (w : Work α) (b : PixelBuffer) : PixelBuffer :=
  match w with
  | .points _ => b.clear
  | _ => b

namespace Session

/-- The session with a fresh pass over its current state, and what is said about it. -/
def startPass (s : Session α) (now : Float) : Session α × List (Event α) :=
  let plan := Plan.of s.config s.surface s.backend s.options
  ({ s with
      buffer := plan.work.prepare (s.buffer.ensureSize s.surface)
      progress := .new plan.steps
      status := some (.inFlight s.config.kind plan.backend)
      pass := some ⟨s.config, s.viewport, s.surface, plan.backend, now, plan.work⟩ },
    plan.notes.map .kernelChosen ++ [.passStarted s.config.kind s.surface plan.backend])

/-- Asks for a fresh pass over the current state. -/
def requestRender (s : Session α) (now : Float) : Reply α Outcome :=
  if s.surface.isEmpty then ⟨s, .invalidSurface, [.surfaceEmpty s.surface]⟩
  else if s.pass.isSome then
    match s.options.overlapPolicy with
    | .coalesce => ⟨{ s with pending := true }, .deferred, [.requestDeferred]⟩
    | .drop => ⟨s, .dropped, [.requestDropped]⟩
  else
    let (s, log) := s.startPass now
    ⟨s, .started, log⟩

/-! ### The four outcomes of a request -/

theorem requestRender_empty {s : Session α} (h : s.surface.isEmpty = true) (now : Float) :
    s.requestRender now = ⟨s, .invalidSurface, [.surfaceEmpty s.surface]⟩ := by
  simp [requestRender, h]

theorem requestRender_deferred {s : Session α} (h : s.surface.isEmpty = false)
    (hp : s.pass.isSome = true) (ho : s.options.overlapPolicy = .coalesce) (now : Float) :
    s.requestRender now = ⟨{ s with pending := true }, .deferred, [.requestDeferred]⟩ := by
  simp [requestRender, h, hp, ho]

theorem requestRender_dropped {s : Session α} (h : s.surface.isEmpty = false)
    (hp : s.pass.isSome = true) (ho : s.options.overlapPolicy = .drop) (now : Float) :
    s.requestRender now = ⟨s, .dropped, [.requestDropped]⟩ := by
  simp [requestRender, h, hp, ho]

theorem requestRender_started {s : Session α} (h : s.surface.isEmpty = false)
    (hp : s.pass = none) (now : Float) :
    s.requestRender now = ⟨(s.startPass now).1, .started, (s.startPass now).2⟩ := by
  simp [requestRender, h, hp]

/-! ### Operations that end in a request -/

/-- Returns to the default view. -/
def resetView (s : Session α) (now : Float) : Reply α Outcome :=
  { s with viewport := .ofPreset s.config.preset s.surface.width }.requestRender now

/-- Replaces the configuration. -/
def setConfig (s : Session α) (c : Config α) (now : Float) : Reply α Outcome :=
  let t := { s with config := c }
  if s.config.movesView c then t.resetView now else t.requestRender now

/-- Replaces the view, unless its scale cannot be used. -/
def setViewport (s : Session α) (v : Viewport α) (now : Float) :
    Reply α (Except (ViewportError α) Outcome) :=
  match v.validated with
  | .ok v =>
    let r := { s with viewport := v }.requestRender now
    ⟨r.session, .ok r.result, r.log⟩
  | .error e => ⟨s, .error e, []⟩

/-- Zooms about a position of the surface; a factor above 1 goes nearer. -/
def zoomAt (s : Session α) (p : Point α) (factor : α) (now : Float) :
    Reply α (Except (ViewportError α) Outcome) :=
  match s.viewport.zoomAt p factor s.surface with
  | .ok v =>
    let r := { s with viewport := v }.requestRender now
    ⟨r.session, .ok r.result, r.log⟩
  | .error e => ⟨s, .error e, []⟩

/-- Drags the view by a distance in pixels. -/
def pan (s : Session α) (drag : Point α) (now : Float) : Reply α Outcome :=
  { s with viewport := s.viewport.pan drag }.requestRender now

/-- Changes the size of the surface and keeps the span of the plane across it. -/
def resize (s : Session α) (surface : Surface) (now : Float) : Reply α Outcome :=
  { s with
    viewport := s.viewport.rescaleForWidth s.surface.width surface.width
    surface }.requestRender now

/-- Takes a compiled module into use. -/
def attachBackend (s : Session α) (m : KernelModule α) (now : Float) : Reply α Outcome :=
  let r := { s with backend := .loaded m }.requestRender now
  ⟨r.session, r.result, .backendAttached m.name :: r.log⟩

omit [Scalar α] [Elementary α] in
/-- Records that no compiled module could be loaded. -/
def backendFailed (s : Session α) (reason : String) : Reply α Unit :=
  ⟨{ s with backend := .failed reason }, (), [.backendFailed reason]⟩

end Session

end FractalRender
