import FractalRender.Scalar.Word

/-!
# Progress of a pass

The steps of a pass are counted in a word.  One is added before the count is held to its total, so a
build with overflow checks stops at a count that is at the end of the words, and a build without
them starts it over.
-/

namespace FractalRender

/-- How far a pass has come. -/
structure Progress where
  completed : UInt32
  total : UInt32
  elapsedMs : Float
  isComplete : Bool

namespace Progress

/-- Nothing done of a number of steps. -/
def new (total : UInt32) : Progress := ⟨0, total, 0.0, false⟩

/-- One more step done, but no more than there are. -/
def recordStep (p : Progress) (elapsedMs : Float) : Except Overflow Progress :=
  (checkedAdd p.completed 1).map fun sum => { p with completed := min sum p.total, elapsedMs }

/-- One more step done, in a build without overflow checks. -/
def recordStepUnchecked (p : Progress) (elapsedMs : Float) : Progress :=
  { p with completed := min (p.completed + 1) p.total, elapsedMs }

/-- **Both builds** record the same, as long as the count has room for one more. -/
theorem recordStep_eq (p : Progress) (t : Float) : p.recordStep t =
    if p.completed.toNat + 1 < UInt32.size then .ok (p.recordStepUnchecked t)
    else .error .sum :=
  map_checkedAdd _ p.completed 1

/-- All steps done. -/
def finish (p : Progress) (elapsedMs : Float) : Progress :=
  { p with completed := p.total, elapsedMs, isComplete := true }

/-- The share done in per cent, computed in binary32. -/
def percentage (p : Progress) : Float32 :=
  if p.isComplete then 100.0
  else if p.total = 0 then 0.0
  else p.completed.toFloat32 / p.total.toFloat32 * 100.0

end Progress

end FractalRender
