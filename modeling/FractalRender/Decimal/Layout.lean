import FractalRender.Decimal.Shortest

/-!
# How a decimal is written

A layout says which decimals are written out in full and which with an exponent, and whether a
whole number keeps a point.  `inMessages` is the layout of numbers in messages, and
`wholeText` writes a number rounded to an integer.
-/

namespace FractalRender.Decimal

/-- A way of writing decimals. -/
structure Layout where
  /-- Which exponents of the leading digit are written out in full. -/
  inFull : Int → Bool
  /-- Whether a whole number is written with a point and a zero. -/
  keepsPoint : Bool
  /-- Which of two equally near decimals is written. -/
  tie : Tie

/-- Digits written out in full, the first of them with the weight `10 ^ e`. -/
def positional (keepsPoint : Bool) (ds : List Char) (e : Int) : List Char :=
  if e < 0 then '0' :: '.' :: (List.replicate ((-e).toNat - 1) '0' ++ ds)
  else if e.toNat + 1 < ds.length then ds.take (e.toNat + 1) ++ '.' :: ds.drop (e.toNat + 1)
  else ds ++ List.replicate (e.toNat + 1 - ds.length) '0' ++ if keepsPoint then ['.', '0'] else []

/-- Digits with an exponent, the first of them before the point. -/
def scientific (ds : List Char) (e : Int) : List Char :=
  ds.take 1 ++ (if ds.length ≤ 1 then [] else '.' :: ds.drop 1) ++
    'e' :: (if e < 0 then '-' else '+') :: Nat.toDigits 10 e.natAbs

/-- A decimal in a layout. -/
def Layout.write (l : Layout) (d : Number) : List Char :=
  let ds := Nat.toDigits 10 d.digits
  let e := d.exponent + ds.length - 1
  if l.inFull e then positional l.keepsPoint ds e else scientific ds e

/-- Whether the sign bit of a double is set. -/
def isNegative (x : Float) : Bool := x.toBits >>> 63 == 1

/-- A finite double in a layout. -/
def Layout.writeFloat (l : Layout) (x : Float) : List Char :=
  let size := l.write (shortest l.tie (.ofFloat x))
  if isNegative x then '-' :: size else size

/-- Numbers in messages are written out in full, and whole numbers without a point. -/
def inMessages : Layout where
  inFull := fun _ => true
  keepsPoint := false
  tie := .up

/-- A double that may be no number or infinite, where `finite` writes all others. -/
def orSpecial (finite : Float → List Char) (x : Float) : String :=
  if x.isNaN then "NaN"
  else if x.isFinite then String.ofList (finite x)
  else if isNegative x then "-inf" else "inf"

/-- A double as it stands in messages. -/
def messageText (x : Float) : String := orSpecial inMessages.writeFloat x

/-- The integer nearest to a dyadic, a half going to the even one. -/
def Dyadic.roundToEven (x : Dyadic) : Nat :=
  let q := x.num / x.den
  match compare (2 * (x.num % x.den)) x.den with
  | .lt => q
  | .gt => q + 1
  | .eq => if q % 2 = 0 then q else q + 1

/-- A double rounded to an integer, a half going to the even one.  The sign stays, also of what
is rounded to zero. -/
def wholeText (x : Float) : String :=
  orSpecial (fun x =>
    let size := Nat.toDigits 10 (Dyadic.ofFloat x).roundToEven
    if isNegative x then '-' :: size else size) x

end FractalRender.Decimal
