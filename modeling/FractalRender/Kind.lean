/-!
# The fractals that can be drawn

What each fractal is called, how a picture of it is made, and which arguments its kernel takes.
A name is read from the identifiers (`Kind.id`) and two other spellings (`Kind.otherNames`);
`Kind.ofName?_id` says that reading an identifier gives the fractal back.
-/

namespace FractalRender

/-- A fractal. -/
inductive Kind where
  | mandelbrot
  | julia
  | burningShip
  | tricorn
  | multibrot
  | celtic
  | buffalo
  | perpendicularBurningShip
  | newton
  | phoenix
  | barnsley
  | sierpinski
  | koch
  | magnet1
  | magnet2
  | lambda
deriving DecidableEq

/-- How a picture is made. -/
inductive RenderMode where
  /-- An escape count at every pixel, band by band. -/
  | escapeTime
  /-- A count from a dynamical map at every pixel, band by band. -/
  | dynamical
  /-- The random orbit of an iterated function system, point by point. -/
  | pointCloud
  /-- A curve drawn by a turtle, in one go. -/
  | lSystem
deriving DecidableEq

/-- Which arguments a kernel takes besides the point and the cap. -/
inductive Signature where
  /-- None. -/
  | escape
  /-- The constant of the map. -/
  | julia
  /-- The power of the map. -/
  | power
deriving DecidableEq

namespace Kind

/-- Every fractal, in the order in which they are listed. -/
def all : List Kind :=
  [mandelbrot, julia, burningShip, tricorn, multibrot, celtic, buffalo, perpendicularBurningShip,
    newton, phoenix, barnsley, sierpinski, koch, magnet1, magnet2, lambda]

/-- The identifier, as it stands in configurations and messages. -/
def id : Kind → String
  | mandelbrot => "mandelbrot"
  | julia => "julia"
  | burningShip => "burning_ship"
  | tricorn => "tricorn"
  | multibrot => "multibrot"
  | celtic => "celtic"
  | buffalo => "buffalo"
  | perpendicularBurningShip => "perpendicular_burning_ship"
  | newton => "newton"
  | phoenix => "phoenix"
  | barnsley => "barnsley"
  | sierpinski => "sierpinski"
  | koch => "koch"
  | magnet1 => "magnet1"
  | magnet2 => "magnet2"
  | lambda => "lambda"

/-- The name shown to people. -/
def displayName : Kind → String
  | mandelbrot => "Mandelbrot Set"
  | julia => "Julia Set"
  | burningShip => "Burning Ship"
  | tricorn => "Tricorn"
  | multibrot => "Multibrot"
  | celtic => "Celtic"
  | buffalo => "Buffalo"
  | perpendicularBurningShip => "Perpendicular Burning Ship"
  | newton => "Newton (z³ − 1)"
  | phoenix => "Phoenix"
  | barnsley => "Barnsley Fern"
  | sierpinski => "Sierpinski Triangle"
  | koch => "Koch Curve"
  | magnet1 => "Magnet I"
  | magnet2 => "Magnet II"
  | lambda => "Lambda"

/-- How a picture of the fractal is made. -/
def renderMode : Kind → RenderMode
  | newton | phoenix | magnet1 | magnet2 | lambda => .dynamical
  | barnsley | sierpinski => .pointCloud
  | koch => .lSystem
  | _ => .escapeTime

/-- The arguments of the kernel; nothing for a fractal that has none. -/
def signature? (k : Kind) : Option Signature :=
  match k.renderMode with
  | .pointCloud | .lSystem => none
  | .escapeTime | .dynamical =>
    match k with
    | julia => some .julia
    | multibrot => some .power
    | _ => some .escape

/-- Whether the library itself can draw the fractal; the others need a compiled module. -/
def hasInterpreted : Kind → Bool
  | magnet1 | magnet2 | lambda => false
  | _ => true

/-- The name under which a compiled module exports the kernel. -/
def exportName : Kind → String
  | lambda => "lambda_fractale"
  | k => k.id

/-- Spellings that are read besides the identifiers. -/
def otherNames : List (String × Kind) :=
  [("mandelbrot_classe", mandelbrot), ("lambda_fractale", lambda)]

/-- The fractal with the given identifier or other spelling. -/
def ofName? (name : String) : Option Kind :=
  match otherNames.lookup name with
  | some k => some k
  | none => all.find? (fun k => k.id == name)

/-- The place of the fractal in `all`. -/
def index (k : Kind) : Nat := all.idxOf k

theorem mem_all (k : Kind) : k ∈ all := by cases k <;> decide

theorem ofName?_id (k : Kind) : ofName? k.id = some k := by cases k <;> decide

end Kind

/-- A name that belongs to no fractal. -/
structure UnknownKind where
  /-- The name as it was given. -/
  name : String
deriving DecidableEq

/-- What is said about a name that belongs to no fractal. -/
def UnknownKind.message (e : UnknownKind) : String := "unknown fractal kind: " ++ e.name

/-- The fractal of a name, or the name as an error. -/
def Kind.ofName (name : String) : Except UnknownKind Kind :=
  match Kind.ofName? name with
  | some k => .ok k
  | none => .error ⟨name⟩

end FractalRender
