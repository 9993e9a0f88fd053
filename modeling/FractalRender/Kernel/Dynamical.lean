import FractalRender.Kernel.Orbit

/-!
# Kernels of dynamical maps

Maps that stop for other reasons than escape: Newton's method stops near a root, the magnet maps
near the fixed point 1, and both where a quotient has no safe divisor.
-/

namespace FractalRender.Kernel

variable {α : Type} [Scalar α]

/-- How near to a root Newton's method has to come, and the least squared size of a derivative
that it divides by. -/
@[inline] def newtonRadius : α := 1e-6

/-- The squared distance that counts as arrived. -/
@[inline] def arrivedSq : α := newtonRadius * newtonRadius

/-- Half the square root of three. -/
@[inline] def halfSqrtThree : α := 0.8660254037844386

/-- The three roots of `z³ − 1`. -/
def cubeRootsOfUnity : List (Complex α) :=
  [⟨1.0, 0.0⟩, ⟨-0.5, halfSqrtThree⟩, ⟨-0.5, -halfSqrtThree⟩]

/-- Whether `z` lies within the arrival distance of `w`. -/
@[inline] def hasArrived (z w : Complex α) : Bool := decide ((z.sub w).normSq < arrivedSq)

/-- One step of Newton's method on `z³ − 1`. -/
@[inline] def newtonStep? (z : Complex α) : Option (Complex α) :=
  let sq := z.square
  (((sq.mul z).sub .one).div? (sq.scale 3.0) newtonRadius).map z.sub

/-- Newton's method on `z³ − 1` from `z`, until it comes near a root or meets a derivative too small
to divide by. -/
@[inline] def newtonOrbit (z : Complex α) : Orbit where
  State := Complex α
  advance z := if cubeRootsOfUnity.any (hasArrived z) then none else newtonStep? z
  start := z

/-- The weight of the state before last in the Phoenix map. -/
@[inline] def phoenixFeedback : α := -0.5

/-- The Phoenix map `z ↦ z² + c − z₋₁/2` from 0, on pairs of a state and the one before. -/
@[inline] def phoenixOrbit (c : Complex α) : Orbit where
  State := Complex α × Complex α
  advance s :=
    let z := s.1
    let before := s.2
    if bailoutSq < z.normSq then none
    else some (⟨z.re * z.re - z.im * z.im + c.re + phoenixFeedback * before.re,
      2.0 * z.re * z.im + c.im + phoenixFeedback * before.im⟩, z)
  start := (.zero, .zero)

/-- The least squared size of a denominator that the magnet maps divide by. -/
@[inline] def magnetLeast : α := 1e-12

/-- Where a magnet orbit stops: beyond the bailout radius, or near the fixed point 1. -/
@[inline] def magnetStops (z : Complex α) : Bool := decide (bailoutSq < z.normSq) || hasArrived z .one

/-- `z ↦ ((z² + c − 1) / (2z + c − 2))²` from 0. -/
@[inline] def magnet1Orbit (c : Complex α) : Orbit :=
  let c1 := c.sub ⟨1.0, 0.0⟩
  let c2 := c.sub ⟨2.0, 0.0⟩
  { State := Complex α
    advance := fun z =>
      if magnetStops z then none
      else ((z.square.add c1).div? ((z.scale 2.0).add c2) magnetLeast).map Complex.square
    start := .zero }

/-- `z ↦ ((z³ + 3(c − 1)z + (c − 1)(c − 2)) / (3z² + 3(c − 2)z + (c − 1)(c − 2) + 1))²` from 0. -/
@[inline] def magnet2Orbit (c : Complex α) : Orbit :=
  let c1 := c.sub ⟨1.0, 0.0⟩
  let c2 := c.sub ⟨2.0, 0.0⟩
  let product := c1.mul c2
  { State := Complex α
    advance := fun z =>
      if magnetStops z then none
      else
        let sq := z.square
        let num := ((sq.mul z).add ((c1.scale 3.0).mul z)).add product
        let den := (((sq.scale 3.0).add ((c2.scale 3.0).mul z)).add product).add .one
        (num.div? den magnetLeast).map Complex.square
    start := .zero }

/-- The logistic map `z ↦ c z (1 − z)` from one half. -/
@[inline] def lambdaOrbit (c : Complex α) : Orbit :=
  .escaping (fun z => (c.mul z).mul (Complex.one.sub z)) ⟨0.5, 0.0⟩

/-! ### Kernels -/

def newton (z : Complex α) (cap : UInt32) : α := (newtonOrbit z).stopTime cap

def phoenix (c : Complex α) (cap : UInt32) : α := (phoenixOrbit c).stopTime cap

def magnet1 (c : Complex α) (cap : UInt32) : α := (magnet1Orbit c).stopTime cap

def magnet2 (c : Complex α) (cap : UInt32) : α := (magnet2Orbit c).stopTime cap

def lambda (c : Complex α) (cap : UInt32) : α := (lambdaOrbit c).stopTime cap

end FractalRender.Kernel
