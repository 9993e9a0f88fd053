/-!
# Finite doubles as exact numbers

A finite double without its sign is a natural number times a power of two.  The reals that are
nearest to it form an interval, and `readsBack` says whether a decimal lies in that interval.
-/

namespace FractalRender.Decimal

/-- The number `mantissa * 2 ^ exponent`, read off a finite double. -/
structure Dyadic where
  mantissa : Nat
  exponent : Int
  /-- Whether the gap to the double below is half the gap to the double above. -/
  narrowBelow : Bool

/-- The number `digits * 10 ^ exponent`. -/
structure Number where
  digits : Nat
  exponent : Int
deriving DecidableEq

namespace Dyadic

/-- The size of a finite double, from its bits.  The sign is passed over. -/
def ofBits (bits : UInt64) : Dyadic :=
  let e := ((bits >>> 52) &&& 0x7FF).toNat
  let f := (bits &&& 0xFFFFFFFFFFFFF).toNat
  if e = 0 then ⟨f, -1074, false⟩ else ⟨0x10000000000000 + f, (e : Int) - 1075, f == 0 && e != 1⟩

/-- The size of a finite double. -/
def ofFloat (x : Float) : Dyadic := ofBits x.toBits

/-- The numerator of the value as a fraction of naturals. -/
def num (x : Dyadic) : Nat := x.mantissa * Nat.pow 2 x.exponent.toNat

/-- The denominator of the value as a fraction of naturals. -/
def den (x : Dyadic) : Nat := Nat.pow 2 (-x.exponent).toNat

end Dyadic

/-- Compares `a * 10 ^ i` with `n * 2 ^ j`. -/
def compareScaled (a : Nat) (i : Int) (n : Nat) (j : Int) : Ordering :=
  compare (a * Nat.pow 10 i.toNat * Nat.pow 2 (-j).toNat)
    (n * Nat.pow 2 j.toNat * Nat.pow 10 (-i).toNat)

/-- Whether a decimal lies among the reals that round to `x`: to the nearest, and from halfway
to the even mantissa. -/
def Dyadic.readsBack (x : Dyadic) (d : Number) : Bool :=
  let below := if x.narrowBelow then 4 * x.mantissa - 1 else 4 * x.mantissa - 2
  let above := 4 * x.mantissa + 2
  let ends := x.mantissa % 2 == 0
  let low := compareScaled d.digits d.exponent below (x.exponent - 2)
  let high := compareScaled d.digits d.exponent above (x.exponent - 2)
  (low == .gt || (ends && low == .eq)) && (high == .lt || (ends && high == .eq))

end FractalRender.Decimal
