import FractalRender.Decimal.Layout

/-!
# Number literals

A literal is split into its sign, its digits and its exponent.  A 32-bit word is read only from a
literal without sign, fraction and exponent.  A double is read from every literal that is not too
large for one, quickly rather than exactly: of the digits those count that fit a 64-bit word, and
a power of ten scales them with a rounding of its own.  With at most fifteen digits and a power of
at most twenty-two there is only that one rounding, and the nearest double comes out; beyond that
it may be a neighbour of the nearest.
-/

namespace FractalRender.Json

/-- Whether a character is a decimal digit. -/
def isDigit (c : Char) : Bool := '0' ≤ c && c ≤ '9'

/-- The value of a list of digits. -/
def digitsValue (ds : List Char) : Nat := ds.foldl (fun n c => n * 10 + (c.toNat - '0'.toNat)) 0

/-- The parts of a number literal. -/
structure NumberParts where
  negative : Bool
  whole : List Char
  /-- The digits after the point; nothing without a point. -/
  fraction? : Option (List Char)
  exponent? : Option Int

/-- The exponent after its mark. -/
def exponentValue : List Char → Int
  | '-' :: ds => -(digitsValue ds : Int)
  | '+' :: ds => digitsValue ds
  | ds => digitsValue ds

/-- The parts of a well-written literal. -/
def NumberParts.ofLiteral (literal : List Char) : NumberParts :=
  let negative := literal.head? == some '-'
  let s := if negative then literal.drop 1 else literal
  let whole := s.takeWhile isDigit
  let s := s.dropWhile isDigit
  let fraction? := if s.head? == some '.' then some ((s.drop 1).takeWhile isDigit) else none
  let s := if s.head? == some '.' then (s.drop 1).dropWhile isDigit else s
  ⟨negative, whole, fraction?, if s.isEmpty then none else some (exponentValue (s.drop 1))⟩

/-- The 32-bit word that a literal stands for. -/
def word? (literal : List Char) : Option UInt32 :=
  let p := NumberParts.ofLiteral literal
  let n := digitsValue p.whole
  if !p.negative && p.fraction?.isNone && p.exponent?.isNone && decide (n < UInt32.size) then
    some (UInt32.ofNat n)
  else none

/-- A word followed by as many of the digits as fit 64 bits, and the digits left. -/
def takeWord (n : Nat) : List Char → Nat × List Char
  | [] => (n, [])
  | c :: cs =>
    let m := n * 10 + (c.toNat - '0'.toNat)
    if m < UInt64.size then takeWord m cs else (n, c :: cs)

/-- The decimal that a literal counts as, by the digits that fit a word.  A digit of the whole
part that is left over still counts as a place. -/
def NumberParts.decimal (p : NumberParts) : Decimal.Number :=
  let fraction := p.fraction?.getD []
  let (n, places) := takeWord 0 p.whole
  let (n, dropped) := takeWord n fraction
  ⟨n, p.exponent?.getD 0 + places.length - (fraction.length - dropped.length)⟩

/-- The double nearest to a power of ten. -/
def powerOfTen (n : Nat) : Float := Float.ofScientific 1 false n

/-- A double scaled by a power of ten, with a rounding for each of at most two steps.  Below the
second step nothing but 0 is left. -/
def scale (x : Float) (e : Int) : Float :=
  if 308 < e then (if x == 0.0 then x else 1.0 / 0.0)
  else if 0 ≤ e then x * powerOfTen e.toNat
  else if -308 ≤ e then x / powerOfTen (-e).toNat
  else if -616 ≤ e then x / powerOfTen 308 / powerOfTen (-e - 308).toNat
  else 0.0

/-- The double that a literal stands for, unless its value is too large for one. -/
def double? (literal : List Char) : Option Float :=
  let p := NumberParts.ofLiteral literal
  let size := scale (UInt64.ofNat p.decimal.digits).toFloat p.decimal.exponent
  if size.isFinite then some (if p.negative then -size else size) else none

/-- Numbers in JSON always have a point or an exponent, and are written out in full from
`0.00001` to just below `10000000000000000`. -/
def numberLayout : Decimal.Layout where
  inFull := fun e => -5 ≤ e && e < 16
  keepsPoint := true
  tie := .toEven

end FractalRender.Json
