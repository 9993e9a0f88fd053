import FractalRender.Scalar.Basic

/-!
# Options of a session
-/

namespace FractalRender

/-- What becomes of a request while a pass is under way. -/
inductive OverlapPolicy where
  /-- It is remembered, and one fresh pass follows. -/
  | coalesce
  /-- It is ignored. -/
  | drop
deriving DecidableEq

/-- How much work a step does, and how compiled kernels are checked. -/
structure Options (α : Type) where
  /-- The rows of a step, for fractals computed pixel by pixel. -/
  rowsPerTick : UInt32
  /-- The points of a step, for point clouds. -/
  pointsPerTick : UInt32
  overlapPolicy : OverlapPolicy
  /-- Whether compiled kernels are compared with the library's own before use. -/
  validateCompiled : Bool
  /-- The largest difference that passes the comparison. -/
  validationTolerance : α

/-- A number of the options that must not be 0. -/
inductive Budget where
  | rowsPerTick
  | pointsPerTick
deriving DecidableEq

/-- Why options are refused. -/
inductive OptionsError (α : Type) where
  /-- The text is no options. -/
  | parse
  /-- A step would do nothing. -/
  | zeroBudget (which : Budget)
  /-- A tolerance that is not finite or below 0. -/
  | invalidTolerance (tolerance : α)

namespace Options

variable {α : Type} [Scalar α]

/-- The options of a session unless others are given. -/
def standard : Options α where
  rowsPerTick := 8
  pointsPerTick := 25000
  overlapPolicy := .coalesce
  validateCompiled := true
  validationTolerance := 1e-9

/-- The options themselves, if a session can work with them. -/
def validate (o : Options α) : Except (OptionsError α) (Options α) :=
  if o.rowsPerTick = 0 then .error (.zeroBudget .rowsPerTick)
  else if o.pointsPerTick = 0 then .error (.zeroBudget .pointsPerTick)
  else if Scalar.isFinite o.validationTolerance && decide ((0.0 : α) ≤ o.validationTolerance) then
    .ok o
  else .error (.invalidTolerance o.validationTolerance)

end Options

end FractalRender
