import FractalRender.Kind

/-!
# Status of a pass
-/

namespace FractalRender

/-- What a pass computes its pixels with. -/
inductive BackendUsed where
  /-- The compiled module of the given name. -/
  | compiled (name : String)
  /-- The library's own kernel. -/
  | interpreted
  /-- Nothing: the fractal needs a compiled module that is not there. -/
  | unavailable
deriving DecidableEq

/-- The name shown for a backend. -/
def BackendUsed.text : BackendUsed → String
  | .compiled name => name
  | .interpreted => "interpreted"
  | .unavailable => "unavailable"

/-- The state of a pass, or its outcome. -/
structure Status where
  kind : Kind
  backend : BackendUsed
  elapsedMs : Float
  completed : Bool

namespace Status

/-- The status of a pass that has just started. -/
def inFlight (kind : Kind) (backend : BackendUsed) : Status := ⟨kind, backend, 0.0, false⟩

/-- The line shown for a status, with the given text of its elapsed time. -/
def textWith (showMs : Float → String) (s : Status) : String :=
  if s.backend = .unavailable then s.kind.id ++ ": compiled backend required (missing export)"
  else if s.completed then s.backend.text ++ " - " ++ showMs s.elapsedMs ++ " ms"
  else "rendering..."

end Status

end FractalRender
