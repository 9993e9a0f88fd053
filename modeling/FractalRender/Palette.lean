import FractalRender.Color
import FractalRender.Scalar.Basic

/-!
# Palettes

A palette is eight colours; a value between 0 and a maximum is coloured by the square root of its
share, blended between the two nearest of the eight.  What reaches the maximum is interior.
-/

namespace FractalRender

/-- A palette. -/
inductive Palette where
  | fire
  | ocean
  | aurora
deriving DecidableEq

/-- The colour of points that never escape. -/
def interior : Rgb := ⟨0, 0, 0⟩

namespace Palette

/-- Every palette, in the order in which they are listed. -/
def all : List Palette := [fire, ocean, aurora]

/-- The identifier, as it stands in configurations. -/
def id : Palette → String
  | fire => "fire"
  | ocean => "ocean"
  | aurora => "aurora"

/-- The palette with the given identifier, or with its other spelling. -/
def ofName? : String → Option Palette
  | "fire" | "feu" => some fire
  | "ocean" => some ocean
  | "aurora" => some aurora
  | _ => none

/-- The place of the palette in `all`. -/
def index (p : Palette) : Nat := all.idxOf p

/-- The eight colours, from the far outside to the edge. -/
def stops : Palette → Vector Rgb 8
  | fire => #v[⟨0, 0, 0⟩, ⟨90, 0, 0⟩, ⟨180, 0, 0⟩, ⟨255, 60, 0⟩, ⟨255, 150, 0⟩, ⟨255, 220, 30⟩,
      ⟨255, 255, 160⟩, ⟨255, 255, 255⟩]
  | ocean => #v[⟨0, 0, 0⟩, ⟨0, 0, 40⟩, ⟨0, 20, 100⟩, ⟨0, 80, 180⟩, ⟨0, 160, 220⟩, ⟨40, 210, 240⟩,
      ⟨160, 240, 255⟩, ⟨255, 255, 255⟩]
  | aurora => #v[⟨0, 0, 0⟩, ⟨0, 15, 20⟩, ⟨0, 80, 60⟩, ⟨0, 180, 90⟩, ⟨50, 120, 210⟩,
      ⟨157, 78, 221⟩, ⟨220, 100, 200⟩, ⟨255, 200, 240⟩]

theorem ofName?_id (p : Palette) : ofName? p.id = some p := by cases p <;> rfl

section

variable {α : Type} [Scalar α]

/-- The byte a share `frac` of the way from `a` to `b`. -/
def blendByte (a b : UInt8) (frac : α) : UInt8 :=
  let a : α := Scalar.ofNat a.toNat
  let b : α := Scalar.ofNat b.toNat
  Scalar.toByte (a + (b - a) * frac)

/-- The colour a share `frac` of the way from `a` to `b`. -/
def blend (a b : Rgb) (frac : α) : Rgb :=
  ⟨blendByte a.red b.red frac, blendByte a.green b.green frac, blendByte a.blue b.blue frac⟩

/-- The colour of `value` on the scale from 0 to `max`. -/
def color [Elementary α] (p : Palette) (value max : α) : Rgb :=
  if Scalar.isNaN value || decide (max ≤ value) then interior
  else
    let place := Elementary.sqrt (Scalar.larger value 0.0 / max) * 7.0
    let lo := min (Scalar.floor place).toNat 7
    let hi := min (lo + 1) 7
    blend p.stops[lo] p.stops[hi] (place - Scalar.ofNat lo)

end

end Palette

/-- A name that belongs to no palette. -/
structure UnknownPalette where
  /-- The name as it was given. -/
  name : String
deriving DecidableEq

/-- What is said about a name that belongs to no palette. -/
def UnknownPalette.message (e : UnknownPalette) : String := "unknown palette: " ++ e.name

/-- The palette of a name, or the name as an error. -/
def Palette.ofName (name : String) : Except UnknownPalette Palette :=
  match Palette.ofName? name with
  | some p => .ok p
  | none => .error ⟨name⟩

end FractalRender
