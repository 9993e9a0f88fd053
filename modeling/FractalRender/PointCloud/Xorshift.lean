import FractalRender.Scalar.Basic

/-!
# The random generator

A generator of 32-bit words by shifts and exclusive or, with shifts 13, 17 and 5.  Its state is
never 0, and each word drawn is the next state.
-/

namespace FractalRender

/-- A generator, by its state. -/
structure Xorshift where
  state : UInt32
deriving DecidableEq

namespace Xorshift

/-- The generator of a seed.  The seed 0, which would stay 0, is taken as 1. -/
def ofSeed (seed : UInt32) : Xorshift := ⟨if seed = 0 then 1 else seed⟩

/-- The state after a state. -/
def scramble (s : UInt32) : UInt32 :=
  let s := s ^^^ (s <<< 13)
  let s := s ^^^ (s >>> 17)
  s ^^^ (s <<< 5)

/-- The generator after one draw.  The word drawn is its state. -/
def next (g : Xorshift) : Xorshift := ⟨scramble g.state⟩

/-- The state as a number from 0 to just below 1. -/
def share {α : Type} [Scalar α] (g : Xorshift) : α := Scalar.ofNat g.state.toNat / 4294967296.0

end Xorshift

end FractalRender
