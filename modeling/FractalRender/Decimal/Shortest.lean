import FractalRender.Decimal.Dyadic

/-!
# The fewest digits that read back

Of all decimals that read back to a double, `shortest` is one with the fewest digits, and of
those the nearest to the double.  For one digit, two digits and so on it looks at the two
neighbours of the value on the grid of that many digits; the first grid with a neighbour that
reads back decides.
-/

namespace FractalRender.Decimal

/-- Which of two equally near decimals is taken. -/
inductive Tie where
  /-- The one with the even last digit. -/
  | toEven
  /-- The one further from zero. -/
  | up

/-- How many decimal digits a natural number has. -/
def decimalLength (n : Nat) : Nat := (Nat.toDigits 10 n).length

namespace Dyadic

/-- The least `k` for which the value, which is not 0, lies below `10 ^ k`. -/
def decimalScale (x : Dyadic) : Int :=
  if x.den ≤ x.num then decimalLength (x.num / x.den)
  else 1 - (decimalLength ((x.den - 1) / x.num) : Int)

/-- How many whole steps of `10 ^ g` the value holds. -/
def floorOn (x : Dyadic) (g : Int) : Nat :=
  x.num * Nat.pow 10 (-g).toNat / (x.den * Nat.pow 10 g.toNat)

/-- The neighbour of the value on the grid of `10 ^ g` that reads back; of two the nearer. -/
def neighbor? (x : Dyadic) (tie : Tie) (g : Int) : Option Number :=
  let d := x.floorOn g
  match x.readsBack ⟨d, g⟩, x.readsBack ⟨d + 1, g⟩ with
  | false, false => none
  | true, false => some ⟨d, g⟩
  | false, true => some ⟨d + 1, g⟩
  | true, true =>
    match compareScaled (2 * d + 1) g (2 * x.mantissa) x.exponent, tie with
    | .gt, _ => some ⟨d, g⟩
    | .lt, _ => some ⟨d + 1, g⟩
    | .eq, .up => some ⟨d + 1, g⟩
    | .eq, .toEven => some (if d % 2 = 0 then ⟨d, g⟩ else ⟨d + 1, g⟩)

/-- The value itself as a decimal. -/
def exact (x : Dyadic) : Number :=
  if 0 ≤ x.exponent then ⟨x.num, 0⟩ else ⟨x.mantissa * Nat.pow 5 (-x.exponent).toNat, x.exponent⟩

end Dyadic

/-- The same decimal without zeros at the end of its digits. -/
def Number.strip (d : Number) : Number :=
  let zeros := ((Nat.toDigits 10 d.digits).reverse.takeWhile (· == '0')).length
  if d.digits = 0 then ⟨0, 0⟩ else ⟨d.digits / Nat.pow 10 zeros, d.exponent + zeros⟩

/-- The shortest decimal that reads back to `x`.  Seventeen digits are enough for a double; were
they not, it would be the exact value. -/
def shortest (tie : Tie) (x : Dyadic) : Number :=
  if x.mantissa = 0 then ⟨0, 0⟩
  else
    let k := x.decimalScale
    let found := (List.range 17).findSome? fun n => x.neighbor? tie (k - (n + 1 : Nat))
    (found.getD x.exact).strip

end FractalRender.Decimal
