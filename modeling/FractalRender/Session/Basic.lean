import FractalRender.Backend.Resolve
import FractalRender.Koch.Drawing
import FractalRender.PointCloud.Sampler
import FractalRender.Progress

/-!
# Sessions and passes

A session is everything that drawing reads and writes.  A pass is one picture under way: it
keeps the configuration, the view and the surface as they were when it started.
-/

namespace FractalRender

/-- What a pass still has to do. -/
inductive Work (α : Type) where
  /-- Bands of pixels, of which the next is the one with the given index. -/
  | pixels (kernel : ResolvedKernel α) (bands : Array PixelRect) (next : Nat)
  /-- Points of a random orbit. -/
  | points (sampler : PointCloud.Sampler α)
  /-- One curve. -/
  | curve
  /-- Nothing can be drawn. -/
  | unavailable

/-- A picture under way. -/
structure Pass (α : Type) where
  config : Config α
  viewport : Viewport α
  surface : Surface
  backend : BackendUsed
  /-- The host's clock when the pass started, in milliseconds. -/
  startedMs : Float
  work : Work α

/-- What drawing reads and writes. -/
structure Session (α : Type) where
  config : Config α
  viewport : Viewport α
  surface : Surface
  options : Options α
  backend : BackendSlot α
  buffer : PixelBuffer
  /-- The pass under way. -/
  pass : Option (Pass α)
  /-- Whether another pass is to follow. -/
  pending : Bool
  progress : Progress
  /-- The status of the pass under way, or of the last one. -/
  status : Option Status

/-- What became of a request. -/
inductive Outcome where
  | started
  | deferred
  | dropped
  | invalidSurface
deriving DecidableEq

/-- What a session says in the log. -/
inductive Event (α : Type) where
  | surfaceEmpty (surface : Surface)
  | requestDeferred
  | requestDropped
  | kernelChosen (note : ResolveNote α)
  | passStarted (kind : Kind) (surface : Surface) (backend : BackendUsed)
  | passFinished (status : Status)
  | backendAttached (name : String)
  | backendFailed (reason : String)

/-- A session after an operation, with the operation's answer and what it said in the log. -/
structure Reply (α β : Type) where
  session : Session α
  result : β
  log : List (Event α)

/-- Finished rows, as the host is given them: the whole buffer, and which of its rows are ready. -/
structure Commit where
  buffer : PixelBuffer
  rows : RowRange

namespace Commit

/-- The bytes of the rows. -/
def bytes (c : Commit) : Array UInt8 := c.buffer.rowBytes c.rows

/-- What is ready of the picture: the rows and their bytes. -/
def shown (c : Commit) : RowRange × Array UInt8 := (c.rows, c.bytes)

end Commit

/-- What became of a step. -/
inductive StepOutcome where
  /-- No pass is under way. -/
  | idle
  /-- The pass needs more steps. -/
  | more
  /-- The pass ended.  The one that follows may have started already. -/
  | finished (status : Status)

/-- What a step answers: its outcome, and the rows it gave to the host. -/
structure StepResult where
  outcome : StepOutcome
  commits : List Commit

namespace Session

variable {α : Type} [Scalar α]

/-- An idle session that shows the default view of a configuration. -/
def new (config : Config α) (surface : Surface) (options : Options α) : Session α where
  config := config
  viewport := .ofPreset config.preset surface.width
  surface := surface
  options := options
  backend := .notLoaded
  buffer := .empty
  pass := none
  pending := false
  progress := .new 0
  status := none

omit [Scalar α] in
/-- Whether a pass is under way. -/
def isRendering (s : Session α) : Bool := s.pass.isSome

/-- The point of the plane shown at a position of the surface. -/
def toComplex (s : Session α) (p : Point α) : Complex α := s.viewport.toComplex p s.surface

end Session

end FractalRender
