import FractalRender.Scalar.Basic

/-!
# Binary64 as the numbers of a picture

The instance that programs run with.  Integers are held within 64 signed bits: a value at or
beyond an end of that range has the end as its floor.
-/

namespace FractalRender.Binary64

/-- The double nearest to a count.  A count that fits a 64-bit word is converted as one. -/
def ofNat (n : Nat) : Float := if n < UInt64.size then n.toUInt64.toFloat else Float.ofNat n

/-- The largest integer not above `x`, held within 64 signed bits; nothing at NaN. -/
def floor? (x : Float) : Option Int :=
  if x.isNaN then none
  else if 0.0 ≤ x then some (min x.toUInt64.toNat 0x7FFFFFFFFFFFFFFF)
  else
    let n := (-x).toUInt64.toNat
    let n := if ofNat n < -x then n + 1 else n
    some (max (-(n : Int)) (-0x8000000000000000))

instance : Scalar Float where
  decLt a b := Float.decLt a b
  decLe a b := Float.decLe a b
  ofNat := ofNat
  abs := Float.abs
  isNaN := Float.isNaN
  isFinite := Float.isFinite
  floor? := floor?

instance : Elementary Float where
  sqrt := Float.sqrt
  pow := Float.pow
  atan2 := Float.atan2
  cos := Float.cos
  sin := Float.sin

end FractalRender.Binary64
