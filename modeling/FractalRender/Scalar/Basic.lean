/-!
# The numbers a picture is computed with

Every computation of this library is written once, over any type of numbers with the operations
of `Scalar`: the arithmetic, an order that can be tested, and a largest integer below.  Programs
run it over binary64 (`FractalRender.Scalar.Binary64`); statements about exact arithmetic read
the same definitions over the rationals.

`Elementary` holds the few functions that have no exact meaning over the rationals.  They are
used as they are given, and no rule of this library depends on what they return.
-/

namespace FractalRender

/-- Numbers with arithmetic, a decidable order and decimal literals.  A number may be no number
(`isNaN`) or not finite; over an exact field neither happens. -/
class Scalar (α : Type) extends Add α, Sub α, Mul α, Div α, Neg α, OfScientific α,
    LT α, LE α, BEq α where
  /-- Whether one number lies below another. -/
  decLt (a b : α) : Decidable (a < b)
  /-- Whether one number is at most another. -/
  decLe (a b : α) : Decidable (a ≤ b)
  /-- The number equal, or nearest, to a count. -/
  ofNat : Nat → α
  /-- The absolute value. -/
  abs : α → α
  /-- Whether the value is no number at all. -/
  isNaN : α → Bool
  /-- Whether the value is a number and not infinite. -/
  isFinite : α → Bool
  /-- The largest integer not above the value, and nothing when there is no number.  A number
  type with a bounded integer range holds the answer inside that range. -/
  floor? : α → Option Int

attribute [reducible, instance] Scalar.decLt Scalar.decLe

/-- The elementary functions a picture is computed with. -/
class Elementary (α : Type) where
  /-- The square root. -/
  sqrt : α → α
  /-- `pow a b` is `a` to the power `b`. -/
  pow : α → α → α
  /-- `atan2 y x` is the angle of the point `(x, y)`. -/
  atan2 : α → α → α
  /-- The cosine. -/
  cos : α → α
  /-- The sine. -/
  sin : α → α

namespace Scalar

variable {α : Type} [Scalar α]

/-- The larger of two numbers; of a number and no number, the number. -/
def larger (a b : α) : α := if isNaN a || decide (a < b) then b else a

/-- The smaller of two numbers; of a number and no number, the number. -/
def smaller (a b : α) : α := if isNaN a || decide (b < a) then b else a

/-- The largest integer not above `a`, and 0 when `a` is no number. -/
def floor (a : α) : Int := (floor? a).getD 0

/-- The least integer not below `a`, held between 0 and the largest 32-bit word. -/
def ceilWord (a : α) : Nat := min (-(floor (-a))).toNat (UInt32.size - 1)

/-- The integer nearest to `a`, a half going away from zero. -/
def round (a : α) : Int :=
  let n := floor (abs a)
  let n := if (0.5 : α) ≤ abs a - ofNat n.toNat then n + 1 else n
  if a < (0.0 : α) then -n else n

/-- The integer part of `a`, held between 0 and 255. -/
def toByte (a : α) : UInt8 := UInt8.ofNat (min (floor a).toNat 255)

/-- `r` times `a` to the power `n`, by repeated squaring. -/
def squareAndMultiply (r a : α) (n : Nat) : α :=
  let r := if n % 2 = 1 then r * a else r
  if n / 2 = 0 then r else squareAndMultiply r (a * a) (n / 2)
termination_by n
decreasing_by omega

/-- `a` to an integer power, by repeated squaring. -/
def powInt (a : α) (n : Int) : α :=
  let r := squareAndMultiply (1.0 : α) a n.natAbs
  if n < 0 then (1.0 : α) / r else r

end Scalar

end FractalRender
