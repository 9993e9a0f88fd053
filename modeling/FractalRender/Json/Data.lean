import FractalRender.Json.Codec
import FractalRender.Options
import FractalRender.Progress
import FractalRender.Scalar.Binary64
import FractalRender.Status
import FractalRender.Viewport

/-!
# The JSON forms of the data of a picture
-/

namespace FractalRender

open Json

/-- The names under which fractals are read. -/
def Kind.jsonNames : List (String × Kind) :=
  [("mandelbrot", .mandelbrot), ("mandelbrot_classe", .mandelbrot), ("julia", .julia),
    ("burning_ship", .burningShip), ("tricorn", .tricorn), ("multibrot", .multibrot),
    ("celtic", .celtic), ("buffalo", .buffalo),
    ("perpendicular_burning_ship", .perpendicularBurningShip), ("newton", .newton),
    ("phoenix", .phoenix), ("barnsley", .barnsley), ("sierpinski", .sierpinski), ("koch", .koch),
    ("magnet1", .magnet1), ("magnet2", .magnet2), ("lambda", .lambda),
    ("lambda_fractale", .lambda)]

/-- The name under which a fractal is written. -/
def Kind.jsonName : Kind → String
  | .mandelbrot => "mandelbrot"
  | .julia => "julia"
  | .burningShip => "burning_ship"
  | .tricorn => "tricorn"
  | .multibrot => "multibrot"
  | .celtic => "celtic"
  | .buffalo => "buffalo"
  | .perpendicularBurningShip => "perpendicular_burning_ship"
  | .newton => "newton"
  | .phoenix => "phoenix"
  | .barnsley => "barnsley"
  | .sierpinski => "sierpinski"
  | .koch => "koch"
  | .magnet1 => "magnet1"
  | .magnet2 => "magnet2"
  | .lambda => "lambda"

theorem Kind.jsonName_eq_id (k : Kind) : k.jsonName = k.id := by cases k <;> rfl

instance : Codec Kind where
  encode k := ofText k.jsonName
  decode? := choice? Kind.jsonNames

/-- The names under which palettes are read. -/
def Palette.jsonNames : List (String × Palette) :=
  [("fire", .fire), ("feu", .fire), ("ocean", .ocean), ("aurora", .aurora)]

/-- The name under which a palette is written. -/
def Palette.jsonName : Palette → String
  | .fire => "fire"
  | .ocean => "ocean"
  | .aurora => "aurora"

theorem Palette.jsonName_eq_id (p : Palette) : p.jsonName = p.id := by cases p <;> rfl

instance : Codec Palette where
  encode p := ofText p.jsonName
  decode? := choice? Palette.jsonNames

/-- The name under which a policy is written. -/
def OverlapPolicy.jsonName : OverlapPolicy → String
  | .coalesce => "coalesce"
  | .drop => "drop"

instance : Codec OverlapPolicy where
  encode p := ofText p.jsonName
  decode? := choice? [("coalesce", .coalesce), ("drop", .drop)]

/-- A point of the plane is an array of its two parts. -/
instance : Codec (Complex Float) where
  encode z := .array [encode z.re, encode z.im]
  decode?
    | .array [re, im] => do some ⟨← decode? re, ← decode? im⟩
    | _ => none

instance : Codec (ViewPreset Float) where
  encode p := record [("center_x", encode p.center.re), ("center_y", encode p.center.im),
    ("span", encode p.span)]
  decode? j :=
    match fields? ["center_x", "center_y", "span"] j with
    | some [x, y, span] => do some ⟨⟨← required? x, ← required? y⟩, ← required? span⟩
    | _ => none

/-- A configuration may leave out fields; they keep their standard values. -/
instance : Codec (Config Float) where
  encode c := record [("kind", encode c.kind), ("max_iterations", encode c.maxIterations),
    ("palette", encode c.palette), ("julia_constant", encode c.juliaConstant),
    ("multibrot_power", encode c.multibrotPower)]
  decode? j :=
    let standard : Config Float := .standard
    match fields? ["kind", "max_iterations", "palette", "julia_constant", "multibrot_power"] j with
    | some [kind, cap, palette, constant, power] => do
      some {
        kind := ← optional? standard.kind kind
        maxIterations := ← optional? standard.maxIterations cap
        palette := ← optional? standard.palette palette
        juliaConstant := ← optional? standard.juliaConstant constant
        multibrotPower := ← optional? standard.multibrotPower power }
    | _ => none

/-- A view is read only with a scale that can be used. -/
instance : Codec (Viewport Float) where
  encode v := record [("center_x", encode v.center.re), ("center_y", encode v.center.im),
    ("units_per_pixel", encode v.unitsPerPixel)]
  decode? j :=
    match fields? ["center_x", "center_y", "units_per_pixel"] j with
    | some [x, y, scale] => do
      (Viewport.ofScale ⟨← required? x, ← required? y⟩ (← required? scale)).toOption
    | _ => none

instance : Codec PixelRect where
  encode r := record [("x", encode r.x), ("y", encode r.y), ("width", encode r.width),
    ("height", encode r.height)]
  decode? j :=
    match fields? ["x", "y", "width", "height"] j with
    | some [x, y, width, height] => do
      some ⟨← required? x, ← required? y, ← required? width, ← required? height⟩
    | _ => none

instance : Codec Progress where
  encode p := record [("completed_steps", encode p.completed), ("total_steps", encode p.total),
    ("elapsed_ms", encode p.elapsedMs), ("is_complete", encode p.isComplete)]
  decode? j :=
    match fields? ["completed_steps", "total_steps", "elapsed_ms", "is_complete"] j with
    | some [completed, total, elapsed, complete] => do
      some ⟨← required? completed, ← required? total, ← required? elapsed, ← required? complete⟩
    | _ => none

/-- A backend without a name: none is given beside its tag, or null is. -/
def BackendUsed.nameless? (b : BackendUsed) : Option Json → Option BackendUsed
  | none | some .null => some b
  | some _ => none

/-- The tags of backends, each with what it makes of the name beside it. -/
def BackendUsed.tags : List (String × (Option Json → Option BackendUsed)) :=
  [("compiled", fun name => (name.bind asText?).map .compiled),
    ("interpreted", nameless? .interpreted), ("unavailable", nameless? .unavailable)]

/-- A backend is an object of its tag and, if it has one, its name; or an array of both. -/
instance : Codec BackendUsed where
  encode
    | .compiled name => record [("type", ofText "compiled"), ("name", ofText name)]
    | .interpreted => record [("type", ofText "interpreted")]
    | .unavailable => record [("type", ofText "unavailable")]
  decode?
    | .array [tag, name] => (choice? BackendUsed.tags tag).bind fun read => read (some name)
    | .array _ => none
    | j =>
      match fields? ["type", "name"] j with
      | some [some tag, name] => (choice? BackendUsed.tags tag).bind fun read => read name
      | _ => none

instance : Codec Status where
  encode s := record [("kind", encode s.kind), ("backend_used", encode s.backend),
    ("elapsed_ms", encode s.elapsedMs), ("completed", encode s.completed)]
  decode? j :=
    match fields? ["kind", "backend_used", "elapsed_ms", "completed"] j with
    | some [kind, backend, elapsed, completed] => do
      some ⟨← required? kind, ← required? backend, ← required? elapsed, ← required? completed⟩
    | _ => none

/-- Options may leave out fields; they keep their standard values. -/
instance : Codec (Options Float) where
  encode o := record [("rows_per_tick", encode o.rowsPerTick),
    ("ifs_points_per_tick", encode o.pointsPerTick), ("overlap_policy", encode o.overlapPolicy),
    ("validate_compiled", encode o.validateCompiled),
    ("validation_tolerance", encode o.validationTolerance)]
  decode? j :=
    let standard : Options Float := .standard
    match fields? ["rows_per_tick", "ifs_points_per_tick", "overlap_policy", "validate_compiled",
      "validation_tolerance"] j with
    | some [rows, points, policy, validate, tolerance] => do
      some {
        rowsPerTick := ← optional? standard.rowsPerTick rows
        pointsPerTick := ← optional? standard.pointsPerTick points
        overlapPolicy := ← optional? standard.overlapPolicy policy
        validateCompiled := ← optional? standard.validateCompiled validate
        validationTolerance := ← optional? standard.validationTolerance tolerance }
    | _ => none

/-- The options that a text stands for, if a session can work with them. -/
def Options.ofText (text : String) : Except (OptionsError Float) (Options Float) :=
  match deserialize? text with
  | some (o : Options Float) => o.validate
  | none => .error .parse

end FractalRender
