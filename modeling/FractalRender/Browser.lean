import FractalRender.Backend.Native
import FractalRender.Json.Data
import FractalRender.Session.Message
import FractalRender.Session.Operation

/-!
# Sessions for a web page

A page knows kernels by their names and drives a session through texts: configurations and
options come in as JSON, outcomes go out as words.
-/

namespace FractalRender.Browser

/-- The kernels that a page can call, by name. -/
def kernels {α : Type} [Scalar α] [Elementary α] : List (String × Export α) :=
  [("mandelbrot", .escape Kernel.mandelbrot), ("julia", .julia Kernel.julia),
    ("burning_ship", .escape Kernel.burningShip), ("tricorn", .escape Kernel.tricorn),
    ("multibrot", .power Kernel.multibrot), ("celtic", .escape Kernel.celtic),
    ("buffalo", .escape Kernel.buffalo),
    ("perpendicular_burning_ship", .escape Kernel.perpendicularBurningShip),
    ("newton", .escape Kernel.newton), ("phoenix", .escape Kernel.phoenix),
    ("magnet1", .escape Kernel.magnet1), ("magnet2", .escape Kernel.magnet2),
    ("lambda_fractale", .escape Kernel.lambda)]

/-- An object of a page, by what stands under a name: a function of numbers or something else, and
nothing at all when the object cannot be asked.  What a function answers that is no number counts as
NaN. -/
abbrev PageObject := String → Option (Option (List Float → Float))

/-- A function of a page as a kernel. -/
def pageExport (f : List Float → Float) : Signature → Export Float
  | .escape => .escape fun z cap => f [z.re, z.im, Scalar.ofNat cap.toNat]
  | .julia => .julia fun z c cap => f [z.re, z.im, c.re, c.im, Scalar.ofNat cap.toNat]
  | .power => .power fun z cap power => f [z.re, z.im, Scalar.ofNat cap.toNat, power]

/-- The functions of a page's object that stand under the export names of kernels. -/
def pageExports? (moduleName : String) (o : PageObject) : Option (ExportTable Float) :=
  Kind.all.foldlM (fun t kind =>
    match kind.signature? with
    | none => some t
    | some signature =>
      (o kind.exportName).map fun
        | some f => t.insert kind.exportName (pageExport f signature)
        | none => t) (.empty moduleName)

/-- The word for an outcome. -/
def outcomeName : Outcome → String
  | .started => "started"
  | .deferred => "deferred"
  | .dropped => "dropped"
  | .invalidSurface => "invalid_surface"

/-- A session that a page drives. -/
structure PageSession where
  inner : Session Float

/-- Why a page is refused a session or a change. -/
inductive PageError where
  /-- The text is no configuration. -/
  | config
  /-- The options cannot be used. -/
  | options (error : OptionsError Float)
  /-- The view cannot be used. -/
  | viewport (error : ViewportError Float)

/-- The configuration that a text stands for. -/
def readConfig (text : String) : Except PageError (Config Float) :=
  match Json.deserialize? text with
  | some c => .ok c
  | none => .error .config

namespace PageSession

/-- A new session from texts; an empty text asks for what is standard. -/
def new (surface : Surface) (configJson optionsJson : String) : Except PageError PageSession := do
  let config ← if configJson.isEmpty then .ok .standard else readConfig configJson
  let options ←
    if optionsJson.isEmpty then .ok .standard
    else (Options.ofText optionsJson).mapError .options
  .ok ⟨.new config surface options⟩

/-- Replaces the configuration by that of a text. -/
def setConfigJson (p : PageSession) (text : String) (now : Float) :
    PageSession × Except PageError String :=
  match readConfig text with
  | .ok c =>
    let r := p.inner.setConfig c now
    (⟨r.session⟩, .ok (outcomeName r.result))
  | .error e => (p, .error e)

/-- The configuration as text. -/
def configJson (p : PageSession) : String := Json.serialize p.inner.config

/-- The page's session and word after a request. -/
def ofReply (r : Reply Float Outcome) : PageSession × String := (⟨r.session⟩, outcomeName r.result)

/-- Asks for a fresh pass. -/
def requestRender (p : PageSession) (now : Float) : PageSession × String :=
  ofReply (p.inner.requestRender now)

/-- Does one step; whether a pass is still under way. -/
def step (p : PageSession) (now : Float) : PageSession × Bool :=
  let r := p.inner.step now
  (⟨r.session⟩,
    match r.result.outcome with
    | .idle => false
    | .more => true
    | .finished _ => r.session.isRendering)

/-- The line shown for the last status; empty before the first pass. -/
def statusTextWith (showMs : Float → String) (p : PageSession) : String :=
  (p.inner.status.map (Status.textWith showMs)).getD ""

/-- The last status as text. -/
def statusJson (p : PageSession) : String :=
  match p.inner.status with
  | some s => Json.serialize s
  | none => Json.render .null

/-- The share done in per cent. -/
def progressPercent (p : PageSession) : Float32 := p.inner.progress.percentage

/-- Zooms about a position of the surface. -/
def zoomAt (p : PageSession) (position : Point Float) (factor : Float) (now : Float) :
    PageSession × Except PageError String :=
  let r := p.inner.zoomAt position factor now
  (⟨r.session⟩, (r.result.map outcomeName).mapError .viewport)

/-- Drags the view. -/
def pan (p : PageSession) (drag : Point Float) (now : Float) : PageSession × String :=
  ofReply (p.inner.pan drag now)

/-- Returns to the default view. -/
def resetView (p : PageSession) (now : Float) : PageSession × String :=
  ofReply (p.inner.resetView now)

/-- Changes the size of the surface. -/
def resize (p : PageSession) (surface : Surface) (now : Float) : PageSession × String :=
  ofReply (p.inner.resize surface now)

/-- Takes the functions of a page's object into use, and says how many there are.  An object that
cannot be asked changes nothing. -/
def attachExports (p : PageSession) (moduleName : String) (o : PageObject) (now : Float) :
    PageSession × Option Nat :=
  match pageExports? moduleName o with
  | some t => (⟨(p.inner.attachBackend t.toModule now).session⟩, some t.size)
  | none => (p, none)

/-- Takes the library's own compiled module into use. -/
def attachNative (p : PageSession) (now : Float) : PageSession :=
  ⟨(p.inner.attachBackend (nativeModule Float) now).session⟩

/-- Records that no compiled module could be loaded. -/
def backendFailed (p : PageSession) (reason : String) : PageSession :=
  ⟨(p.inner.backendFailed reason).session⟩

end PageSession

end FractalRender.Browser
