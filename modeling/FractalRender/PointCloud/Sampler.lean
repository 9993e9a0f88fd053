import FractalRender.PointCloud.Attractor
import FractalRender.PointCloud.Xorshift
import FractalRender.Raster.PixelBuffer
import FractalRender.Viewport

/-!
# Sampling a point cloud

A sampler walks one random orbit of a system and plots its points in batches until their number
is reached.  `plot` is one point on a buffer, `collect` one point into a list; a batch of either
is so many of them in a row, so where the batches are cut does not matter.
-/

namespace FractalRender.PointCloud

/-- How many points a picture takes at an iteration cap. -/
def pointTarget (cap : UInt32) : Nat := max 30000 (cap.toNat * 900)

/-- The walk along an orbit. -/
structure Sampler (α : Type) where
  system : Attractor
  random : Xorshift
  position : Complex α
  /-- How many points are still to be passed over. -/
  burnInLeft : Nat
  /-- How many points were plotted, on the buffer or off it. -/
  emitted : Nat
  /-- How many points are to be plotted. -/
  target : Nat

namespace Sampler

variable {α : Type} [Scalar α]

/-- The sampler of a system at an iteration cap, before its first point. -/
def new (system : Attractor) (cap : UInt32) : Sampler α where
  system := system
  random := .ofSeed (system.seed cap)
  position := .zero
  burnInLeft := system.burnIn
  emitted := 0
  target := pointTarget cap

omit [Scalar α] in
/-- Whether all points were plotted. -/
def isDone (s : Sampler α) : Bool := decide (s.target ≤ s.emitted)

omit [Scalar α] in
/-- How many batches of a size the whole picture takes, held within a 32-bit word.  A batch
of no points counts as one. -/
def totalBatches (s : Sampler α) (batch : UInt32) : UInt32 :=
  UInt32.ofNat (min (bandCount s.target (max batch 1).toNat) (UInt32.size - 1))

/-- The sampler one point further along its orbit. -/
def walk (s : Sampler α) : Sampler α :=
  let random := s.random.next
  { s with random, position := s.system.step s.position random.share }

/-- The sampler after so many points that are not plotted. -/
def skip : Nat → Sampler α → Sampler α
  | 0, s => s
  | n + 1, s => skip n s.walk

/-- The sampler with its burn-in behind it. -/
def burnedIn (s : Sampler α) : Sampler α := { s.skip s.burnInLeft with burnInLeft := 0 }

/-- The pixel at which a point of the plane is shown, if it has one on the surface. -/
def cell? (v : Viewport α) (size : Surface) (z : Complex α) : Option (Nat × Nat) :=
  let p := v.toPixel z size
  match Scalar.floor? p.x, Scalar.floor? p.y with
  | some x, some y =>
    if 0 ≤ x ∧ 0 ≤ y ∧ x < size.width.toNat ∧ y < size.height.toNat then some (x.toNat, y.toNat)
    else none
  | _, _ => none

/-- The buffer with the pixel of one point lit. -/
def lightPoint (v : Viewport α) (t : Tint) (b : PixelBuffer) (z : Complex α) : PixelBuffer :=
  match cell? v b.size z with
  | some (x, y) => b.light x y t
  | none => b

/-- The sampler and the buffer after `n` points. -/
def plot (v : Viewport α) : Nat → Sampler α → PixelBuffer → Sampler α × PixelBuffer
  | 0, s, b => (s, b)
  | n + 1, s, b =>
    let s := s.walk
    plot v n { s with emitted := s.emitted + 1 } (lightPoint v s.system.tint b s.position)

/-- Plotting in two parts is plotting at once. -/
theorem plot_add (v : Viewport α) (m n : Nat) (s : Sampler α) (b : PixelBuffer) :
    plot v (m + n) s b = plot v n (plot v m s b).1 (plot v m s b).2 := by
  induction m generalizing s b with
  | zero => rw [Nat.zero_add]; rfl
  | succ m ih => rw [Nat.succ_add]; exact ih _ _

@[simp] theorem size_lightPoint (v : Viewport α) (t : Tint) (b : PixelBuffer) (z : Complex α) :
    (lightPoint v t b z).size = b.size := by
  unfold lightPoint
  split
  · exact b.size_light _ _ t
  · rfl

@[simp] theorem size_plot (v : Viewport α) (n : Nat) (s : Sampler α) (b : PixelBuffer) :
    (plot v n s b).2.size = b.size := by
  induction n generalizing s b with
  | zero => rfl
  | succ n ih => rw [plot, ih, size_lightPoint]

/-- Points that are not plotted are not counted. -/
theorem counts_skip (n : Nat) (s : Sampler α) :
    (skip n s).emitted = s.emitted ∧ (skip n s).target = s.target := by
  induction n generalizing s with
  | zero => exact ⟨rfl, rfl⟩
  | succ n ih => exact ih s.walk

/-- Every point plotted is counted. -/
theorem counts_plot (v : Viewport α) (n : Nat) (s : Sampler α) (b : PixelBuffer) :
    (plot v n s b).1.emitted = s.emitted + n ∧ (plot v n s b).1.target = s.target := by
  induction n generalizing s b with
  | zero => exact ⟨rfl, rfl⟩
  | succ n ih =>
    obtain ⟨he, ht⟩ := ih { s.walk with emitted := s.emitted + 1 } _
    exact ⟨he.trans (by simp only [Nat.add_assoc, Nat.add_comm 1 n]), ht⟩

omit [Scalar α] in
/-- How many points the next batch plots: its size, or what is left. -/
def batchCount (s : Sampler α) (batch : UInt32) : Nat := min batch.toNat (s.target - s.emitted)

/-- What a batch leaves behind. -/
structure Advance (α : Type) where
  /-- How many points were plotted. -/
  count : Nat
  sampler : Sampler α
  buffer : PixelBuffer

/-- Plots a batch of points, after whatever is left of the burn-in. -/
def advance (s : Sampler α) (batch : UInt32) (v : Viewport α) (b : PixelBuffer) : Advance α :=
  let s := s.burnedIn
  let count := s.batchCount batch
  let (s, b) := plot v count s b
  ⟨count, s, b⟩

@[simp] theorem size_advance (s : Sampler α) (batch : UInt32) (v : Viewport α) (b : PixelBuffer) :
    (s.advance batch v b).buffer.size = b.size :=
  size_plot v _ _ b

/-- A batch is counted in full, the burn-in before it not at all. -/
theorem counts_advance (s : Sampler α) (batch : UInt32) (v : Viewport α) (b : PixelBuffer) :
    (s.advance batch v b).sampler.emitted = s.emitted + s.batchCount batch ∧
      (s.advance batch v b).sampler.target = s.target := by
  obtain ⟨he, ht⟩ := counts_skip s.burnInLeft s
  obtain ⟨he', ht'⟩ := counts_plot v (s.burnedIn.batchCount batch) s.burnedIn b
  have hcount : s.burnedIn.batchCount batch = s.batchCount batch := by
    simp only [batchCount, burnedIn, he, ht]
  exact ⟨he'.trans (by rw [hcount]; exact congrArg (· + _) he), ht'.trans ht⟩

/-- The sampler after `n` points, and the points behind those already collected. -/
def collect : Nat → Sampler α → Array (Complex α) → Sampler α × Array (Complex α)
  | 0, s, ps => (s, ps)
  | n + 1, s, ps =>
    let s := s.walk
    collect n { s with emitted := s.emitted + 1 } (ps.push s.position)

/-- All points that are left, in the order in which `advance` plots them. -/
def drain (s : Sampler α) : Sampler α × Array (Complex α) :=
  let s := s.burnedIn
  collect (s.target - s.emitted) s #[]

end Sampler

end FractalRender.PointCloud
