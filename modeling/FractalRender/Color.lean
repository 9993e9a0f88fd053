/-!
# Colours
-/

namespace FractalRender

/-- A colour in three channels. -/
structure Rgb where
  red : UInt8
  green : UInt8
  blue : UInt8
deriving DecidableEq

/-- A colour with its coverage. -/
structure Rgba extends Rgb where
  alpha : UInt8
deriving DecidableEq

namespace Rgba

/-- The empty pixel. -/
def clear : Rgba := ⟨⟨0, 0, 0⟩, 0⟩

/-- Black that covers all beneath it. -/
def black : Rgba := ⟨⟨0, 0, 0⟩, 255⟩

/-- The four bytes of a pixel, in the order in which a buffer holds them. -/
def toList (p : Rgba) : List UInt8 := [p.red, p.green, p.blue, p.alpha]

end Rgba

/-- A colour that covers all beneath it. -/
def Rgb.solid (c : Rgb) : Rgba := ⟨c, 255⟩

/-- The sum of two bytes, at most 255. -/
def addSaturating (a b : UInt8) : UInt8 := if a.toNat + b.toNat < 256 then a + b else 255

/-- A channel lit by `add`: below its ceiling it grows up to the ceiling, and above it stays. -/
def lightenChannel (current add ceiling : UInt8) : UInt8 :=
  if current < ceiling then min (addSaturating current add) ceiling else current

/-- How much one point lights a pixel, and up to which colour. -/
structure Tint where
  add : Rgb
  ceiling : Rgb
deriving DecidableEq

/-- A pixel lit once. -/
def Tint.apply (t : Tint) (p : Rgba) : Rgba :=
  ⟨⟨lightenChannel p.red t.add.red t.ceiling.red,
    lightenChannel p.green t.add.green t.ceiling.green,
    lightenChannel p.blue t.add.blue t.ceiling.blue⟩, 255⟩

end FractalRender
