import FractalRender.Decimal.Layout
import FractalRender.Session.Basic

/-!
# Wording

The texts of errors and of the log, for sessions over binary64.
-/

namespace FractalRender

/-- What is said when a view is refused. -/
def ViewportError.message : ViewportError Float → String
  | invalidScale scale =>
    "units per pixel must be positive and finite, got " ++ Decimal.messageText scale
  | invalidZoomFactor factor =>
    "zoom factor must be positive and finite, got " ++ Decimal.messageText factor

/-- The name of a budget in messages. -/
def Budget.name : Budget → String
  | rowsPerTick => "rows_per_tick"
  | pointsPerTick => "ifs_points_per_tick"

/-- What is said when options are refused. -/
def OptionsError.message : OptionsError Float → String
  | parse => "failed to parse session options"
  | zeroBudget which => which.name ++ " must be greater than zero"
  | invalidTolerance tolerance =>
    "validation tolerance must be finite and non-negative, got " ++ Decimal.messageText tolerance

/-- What is said when an export is not used. -/
def BackendError.message : BackendError Float → String
  | unavailable reason => "backend unavailable: " ++ reason
  | missingExport kind => "backend has no export for " ++ kind.id
  | signatureMismatch kind => "backend export for " ++ kind.id ++ " has the wrong signature"
  | validationFailed kind maxError =>
    "backend export for " ++ kind.id ++ " disagrees with the interpreted kernel (max error " ++
      Decimal.messageText maxError ++ ")"

/-- The line shown for a status. -/
def Status.text (s : Status) : String := s.textWith Decimal.wholeText

/-- How much a log line matters. -/
inductive Level where
  | debug
  | info
  | warn
deriving DecidableEq

/-- The name of a level. -/
def Level.name : Level → String
  | debug => "debug"
  | info => "info"
  | warn => "warn"

/-- A size as it stands in the log. -/
def Surface.text (s : Surface) : String := toString s.width ++ "x" ++ toString s.height

/-- How much what is said about the choice of a kernel matters. -/
def ResolveNote.level {α : Type} : ResolveNote α → Level
  | noBackend _ => .debug
  | backendFailed _ | exportRefused _ _ => .warn

/-- What is said about the choice of a kernel. -/
def ResolveNote.text : ResolveNote Float → String
  | noBackend kind => "No backend loaded, " ++ kind.id ++ " uses the fallback"
  | backendFailed reason => (BackendError.unavailable reason).message
  | exportRefused error moduleName => error.message ++ " (" ++ moduleName ++ "), falling back"

namespace Event

/-- How much an event matters. -/
def level {α : Type} : Event α → Level
  | surfaceEmpty _ | requestDeferred | requestDropped | passStarted _ _ _ => .debug
  | kernelChosen note => note.level
  | passFinished s => if s.completed then .info else .warn
  | backendAttached _ => .info
  | backendFailed _ => .warn

/-- What is said of an event, with the given text of an elapsed time. -/
def textWith (showMs : Float → String) : Event Float → String
  | surfaceEmpty s => "Render request ignored: surface is " ++ s.text
  | requestDeferred => "Render in flight, deferring request"
  | requestDropped => "Render in flight, dropping request"
  | kernelChosen note => note.text
  | passStarted kind s backend =>
    "Starting " ++ kind.id ++ " pass: " ++ s.text ++ ", backend " ++ backend.text
  | passFinished s =>
    if s.completed then
      "Rendered " ++ s.kind.id ++ " with " ++ s.backend.text ++ " in " ++ showMs s.elapsedMs ++ " ms"
    else s.textWith showMs
  | backendAttached name => "Backend " ++ name ++ " attached"
  | backendFailed reason => "Backend failed to load: " ++ reason

/-- What is said of an event. -/
def text (e : Event Float) : String := e.textWith Decimal.wholeText

end Event

end FractalRender
