/-!
# Sums of words

A build with overflow checks stops at a sum that is too large for a word.  A build without them, as
it is made for web pages, goes on with what is left of the sum in the word.
-/

namespace FractalRender

/-- Arithmetic that leaves the words, which stops a build with overflow checks. -/
inductive Overflow where
  /-- A sum that is too large. -/
  | sum
deriving DecidableEq

/-- The error as text. -/
def Overflow.message : Overflow → String
  | sum => "attempt to add with overflow"

/-- The sum of two words, if it is a word. -/
def checkedAdd (a b : UInt32) : Except Overflow UInt32 :=
  if a.toNat + b.toNat < UInt32.size then .ok (a + b) else .error .sum

/-- What is made of a sum of two words, in a build with overflow checks. -/
theorem map_checkedAdd {β : Type} (f : UInt32 → β) (a b : UInt32) : (checkedAdd a b).map f =
    if a.toNat + b.toNat < UInt32.size then .ok (f (a + b)) else .error .sum := by
  rw [checkedAdd]
  split <;> rfl

end FractalRender
