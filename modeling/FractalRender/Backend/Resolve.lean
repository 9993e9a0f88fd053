import FractalRender.Backend.Export
import FractalRender.Kernel.Interpreted
import FractalRender.Options
import FractalRender.Status
import FractalRender.Viewport

/-!
# Which kernel a pass uses

At its start a pass settles on one kernel: the export of the loaded module, if there is one that
takes the right arguments and passes the check; else the library's own; else none.  Problems are
notes for the log, never failures.
-/

namespace FractalRender

variable {α : Type}

/-- Why an export is not used. -/
inductive BackendError (α : Type) where
  /-- No module could be loaded. -/
  | unavailable (reason : String)
  /-- The module has no export for the fractal. -/
  | missingExport (kind : Kind)
  /-- The export takes other arguments. -/
  | signatureMismatch (kind : Kind)
  /-- The export fails the check, by the given error. -/
  | validationFailed (kind : Kind) (maxError : α)

/-- Whether a compiled module is there. -/
inductive BackendSlot (α : Type) where
  | notLoaded
  | loaded (m : KernelModule α)
  | failed (reason : String)

/-- Where the kernel of a pass comes from. -/
inductive KernelSource (α : Type) where
  /-- An export of the module of the given name. -/
  | compiled (moduleName : String) (kernel : Export α)
  /-- The library's own kernel. -/
  | interpreted
  /-- Nowhere. -/
  | unavailable

/-- The kernel of a pass. -/
structure ResolvedKernel (α : Type) where
  kind : Kind
  source : KernelSource α

/-- What settling on a kernel says in the log. -/
inductive ResolveNote (α : Type) where
  /-- No module is loaded, so the library's own kernel is used. -/
  | noBackend (kind : Kind)
  /-- Loading the module had failed. -/
  | backendFailed (reason : String)
  /-- The module has no usable export. -/
  | exportRefused (error : BackendError α) (moduleName : String)

/-- The backend that a kernel source counts as. -/
def KernelSource.used : KernelSource α → BackendUsed
  | compiled name _ => .compiled name
  | interpreted => .interpreted
  | unavailable => .unavailable

namespace ResolvedKernel

/-- The kernel without a compiled module. -/
def fallback (kind : Kind) : ResolvedKernel α :=
  ⟨kind, if kind.hasInterpreted then .interpreted else .unavailable⟩

variable [Scalar α] [Elementary α]

/-- The value of the kernel at a point, if there is a kernel. -/
def evaluate (k : ResolvedKernel α) (p : KernelParams α) (z : Complex α) : Option α :=
  match k.source with
  | .compiled _ e => some (e.call p z)
  | .interpreted | .unavailable => Kernel.interpreted? k.kind p z

end ResolvedKernel

variable [Scalar α]

/-- The side of the grid on which exports are checked. -/
def sampleGrid : UInt32 := 5

/-- The points at which an export of a fractal is checked: the middles of a grid of pixels over
its default view, row by row. -/
def samplePoints (kind : Kind) (p : KernelParams α) : List (Complex α) :=
  let view := Viewport.ofPreset (kind.preset p.multibrotPower) sampleGrid
  (List.range sampleGrid.toNat).flatMap fun y =>
    (List.range sampleGrid.toNat).map fun x =>
      view.toComplex ⟨Scalar.ofNat x + 0.5, Scalar.ofNat y + 0.5⟩ ⟨sampleGrid, sampleGrid⟩

variable [Elementary α]

/-- Whether a value is one that a kernel may return at a cap. -/
def isInRange (value : α) (cap : UInt32) : Bool :=
  decide ((0.0 : α) ≤ value) && decide (value ≤ Scalar.ofNat cap.toNat)

/-- The largest difference found so far, after one more sample; nothing once a value is out of
range. -/
def worsen (kind : Kind) (e : Export α) (p : KernelParams α) (worst : α) (z : Complex α) :
    Option α :=
  let value := e.call p z
  if isInRange value p.maxIterations then
    match Kernel.interpreted? kind p z with
    | some expected => some (Scalar.larger worst (Scalar.abs (value - expected)))
    | none => some worst
  else none

/-- Checks an export on the sample points: every value must be in range and, where the library
has a kernel of its own, near the value of that one.  The error of a value out of range is
no number. -/
def validateExport (kind : Kind) (e : Export α) (p : KernelParams α) (tolerance : α) :
    Except (BackendError α) (Export α) :=
  match (samplePoints kind p).foldlM (worsen kind e p) 0.0 with
  | none => .error (.validationFailed kind (0.0 / 0.0))
  | some worst => if tolerance < worst then .error (.validationFailed kind worst) else .ok e

/-- The export of a module for a fractal, if it can be used. -/
def compiledExport (kind : Kind) (m : KernelModule α) (o : Options α) (p : KernelParams α) :
    Except (BackendError α) (Export α) :=
  match m.export? kind.exportName with
  | none => .error (.missingExport kind)
  | some e =>
    if some e.signature ≠ kind.signature? then .error (.signatureMismatch kind)
    else if o.validateCompiled then validateExport kind e p o.validationTolerance
    else .ok e

/-- The kernel of a pass, and what is said about the choice. -/
def resolveKernel (kind : Kind) (slot : BackendSlot α) (o : Options α) (p : KernelParams α) :
    ResolvedKernel α × List (ResolveNote α) :=
  if kind.signature?.isNone then (.fallback kind, [])
  else
    match slot with
    | .notLoaded => (.fallback kind, [.noBackend kind])
    | .failed reason => (.fallback kind, [.backendFailed reason])
    | .loaded m =>
      match compiledExport kind m o p with
      | .ok e => (⟨kind, .compiled m.name e⟩, [])
      | .error err => (.fallback kind, [.exportRefused err m.name])

end FractalRender
