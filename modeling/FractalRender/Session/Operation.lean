import FractalRender.Session.Step

/-!
# Operations

Everything that can be done to a session, as data: a history of a session is a list of
operations.
-/

namespace FractalRender

/-- Something done to a session. -/
inductive Operation (α : Type) where
  | requestRender
  | step
  | setConfig (config : Config α)
  | setViewport (viewport : Viewport α)
  | resetView
  | zoomAt (position : Point α) (factor : α)
  | pan (drag : Point α)
  | resize (surface : Surface)
  | attachBackend (m : KernelModule α)
  | backendFailed (reason : String)

/-- What an operation answers. -/
inductive Answer (α : Type) where
  /-- The outcome of a request. -/
  | outcome (outcome : Outcome)
  /-- A refusal. -/
  | refused (error : ViewportError α)
  /-- The result of a step. -/
  | stepped (result : StepResult)
  /-- Nothing. -/
  | done

/-- The answer of a request that may be refused. -/
def Answer.ofExcept {α : Type} : Except (ViewportError α) Outcome → Answer α
  | .ok o => .outcome o
  | .error e => .refused e

namespace Session

variable {α : Type} [Scalar α] [Elementary α]

/-- The answer of a reply in the common form. -/
def answer {β : Type} (f : β → Answer α) (r : Reply α β) : Reply α (Answer α) :=
  ⟨r.session, f r.result, r.log⟩

/-- Does one operation, at a reading of the host's clock. -/
def perform (s : Session α) (now : Float) : Operation α → Reply α (Answer α)
  | .requestRender => answer .outcome (s.requestRender now)
  | .step => answer .stepped (s.step now)
  | .setConfig c => answer .outcome (s.setConfig c now)
  | .setViewport v => answer .ofExcept (s.setViewport v now)
  | .resetView => answer .outcome (s.resetView now)
  | .zoomAt p factor => answer .ofExcept (s.zoomAt p factor now)
  | .pan drag => answer .outcome (s.pan drag now)
  | .resize surface => answer .outcome (s.resize surface now)
  | .attachBackend m => answer .outcome (s.attachBackend m now)
  | .backendFailed reason => answer (fun _ => .done) (s.backendFailed reason)

end Session

end FractalRender
