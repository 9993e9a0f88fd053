import FractalRender.Config

/-!
# Kernels of compiled modules

A compiled module offers kernels by name.  An export is such a kernel together with the
arguments it takes; nothing is assumed about what it returns.
-/

namespace FractalRender

variable {α : Type}

/-- A kernel of a compiled module, by the arguments it takes. -/
inductive Export (α : Type) where
  | escape (run : Complex α → UInt32 → α)
  | julia (run : Complex α → Complex α → UInt32 → α)
  | power (run : Complex α → UInt32 → α → α)

namespace Export

/-- The arguments that the kernel takes. -/
def signature : Export α → Signature
  | escape _ => .escape
  | julia _ => .julia
  | power _ => .power

/-- The value of the kernel at a point, with what else it takes from the parameters. -/
def call (e : Export α) (p : KernelParams α) (z : Complex α) : α :=
  match e with
  | escape run => run z p.maxIterations
  | julia run => run z p.juliaConstant p.maxIterations
  | power run => run z p.maxIterations p.multibrotPower

end Export

/-- A compiled module: a name and the kernels it exports. -/
structure KernelModule (α : Type) where
  name : String
  export? : String → Option (Export α)

/-- Exports listed by name.  A name that is entered again stands for its last export. -/
structure ExportTable (α : Type) where
  name : String
  entries : List (String × Export α)

namespace ExportTable

/-- The table without exports. -/
def empty (name : String) : ExportTable α := ⟨name, []⟩

/-- The table with an export entered under a name. -/
def insert (t : ExportTable α) (name : String) (e : Export α) : ExportTable α :=
  { t with entries := (name, e) :: t.entries.filter fun entry => entry.1 != name }

/-- The export entered under a name. -/
def export? (t : ExportTable α) (name : String) : Option (Export α) := t.entries.lookup name

/-- How many names have an export. -/
def size (t : ExportTable α) : Nat := t.entries.length

/-- Whether no name has an export. -/
def isEmpty (t : ExportTable α) : Bool := t.entries.isEmpty

/-- The table as a module. -/
def toModule (t : ExportTable α) : KernelModule α := ⟨t.name, t.export?⟩

end ExportTable

end FractalRender
