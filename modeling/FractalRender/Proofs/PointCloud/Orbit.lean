import FractalRender.PointCloud.Sampler

/-!
# Point clouds — one orbit, in batches and at once

A picture is plotted in batches, and its points can also be collected at once.  Both walk along the
same orbit: the burn-in is left behind once, before the first point of either, and a batch goes on
where the one before it stopped.

* `plot_eq_collect`: plotting is lighting the points that collecting gives, in their order.
* `advances_eq_plot`: batches plot as many points as fit into them, from the burn-in on.
* `isDone_advances`, `buffer_advances`: when all points are plotted, and that the buffer is then lit
  by the points of the whole orbit.
-/

namespace FractalRender.PointCloud.Sampler

variable {α : Type} [Scalar α]

/-! ### Plotting and collecting -/

/-- **Plotting is lighting the points that are collected**, in their order. -/
theorem plot_eq_collect (v : Viewport α) (n : Nat) (s : Sampler α) (b : PixelBuffer)
    (ps : Array (Complex α)) :
    plot v n s (ps.foldl (lightPoint v s.system.tint) b) =
      ((collect n s ps).1, (collect n s ps).2.foldl (lightPoint v s.system.tint) b) := by
  induction n generalizing s ps with
  | zero => rfl
  | succ n ih =>
      have h := ih { s.walk with emitted := s.emitted + 1 } (ps.push s.walk.position)
      rw [Array.foldl_push] at h
      exact h

/-- Plotting does not change how much burn-in is left. -/
theorem burnInLeft_plot (v : Viewport α) (n : Nat) (s : Sampler α) (b : PixelBuffer) :
    (plot v n s b).1.burnInLeft = s.burnInLeft := by
  induction n generalizing s b with
  | zero => rfl
  | succ n ih => exact ih _ _

/-- Without burn-in there is none to leave behind. -/
theorem burnedIn_eq_self {s : Sampler α} (h : s.burnInLeft = 0) : s.burnedIn = s := by
  obtain ⟨system, random, position, burnInLeft, emitted, target⟩ := s
  cases h
  rfl

/-- A burn-in changes no counts and no system. -/
theorem counts_burnedIn (s : Sampler α) :
    s.burnedIn.emitted = s.emitted ∧ s.burnedIn.target = s.target :=
  counts_skip s.burnInLeft s

theorem system_burnedIn (s : Sampler α) : s.burnedIn.system = s.system := by
  have skipped (n : Nat) (t : Sampler α) : (skip n t).system = t.system := by
    induction n generalizing t with
    | zero => rfl
    | succ n ih => exact ih t.walk
  exact skipped s.burnInLeft s

/-! ### Batches -/

/-- The sampler and the buffer after batches of the given sizes. -/
def advances (v : Viewport α) : List UInt32 → Sampler α → PixelBuffer → Sampler α × PixelBuffer
  | [], s, b => (s, b)
  | batch :: batches, s, b =>
    advances v batches (s.advance batch v b).sampler (s.advance batch v b).buffer

/-- How many points fit into batches of the given sizes. -/
def capacity : List UInt32 → Nat
  | [] => 0
  | batch :: batches => batch.toNat + capacity batches

/-- **Batches plot as many points as fit into them**, but no more than are left, from the burn-in
on. -/
theorem advances_eq_plot (v : Viewport α) (batches : List UInt32) (s : Sampler α)
    (b : PixelBuffer) :
    ((advances v batches s b).1.burnedIn, (advances v batches s b).2) =
      plot v (min (capacity batches) (s.target - s.emitted)) s.burnedIn b := by
  induction batches generalizing s b with
  | nil =>
      rw [show capacity [] = 0 from rfl, Nat.zero_min]
      rfl
  | cons batch batches ih =>
      obtain ⟨emitted, target⟩ := s.counts_advance batch v b
      obtain ⟨emitted', target'⟩ := s.counts_burnedIn
      have hcount : min (capacity (batch :: batches)) (s.target - s.emitted) =
          s.burnedIn.batchCount batch +
            min (capacity batches) (s.target - (s.emitted + s.batchCount batch)) := by
        simp only [batchCount, emitted', target', capacity]
        omega
      have hburned : (s.advance batch v b).sampler.burnedIn = (s.advance batch v b).sampler :=
        burnedIn_eq_self (burnInLeft_plot v _ s.burnedIn b)
      rw [hcount, plot_add]
      refine (ih _ _).trans ?_
      rw [emitted, target, hburned]
      rfl

/-- Every point that fits into the batches is counted, as long as any are left. -/
theorem counts_advances (v : Viewport α) (batches : List UInt32) (s : Sampler α)
    (b : PixelBuffer) :
    (advances v batches s b).1.emitted =
        s.emitted + min (capacity batches) (s.target - s.emitted) ∧
      (advances v batches s b).1.target = s.target := by
  obtain ⟨emitted, target⟩ :=
    counts_plot v (min (capacity batches) (s.target - s.emitted)) s.burnedIn b
  rw [← advances_eq_plot] at emitted target
  obtain ⟨emitted', target'⟩ := s.counts_burnedIn
  obtain ⟨emitted'', target''⟩ := (advances v batches s b).1.counts_burnedIn
  exact ⟨emitted''.symm.trans (emitted.trans (by rw [emitted'])),
    target''.symm.trans (target.trans target')⟩

/-- All points are plotted when all that were left fit into the batches. -/
theorem isDone_advances (v : Viewport α) (batches : List UInt32) (s : Sampler α)
    (b : PixelBuffer) :
    (advances v batches s b).1.isDone = true ↔ s.target ≤ s.emitted + capacity batches := by
  obtain ⟨emitted, target⟩ := counts_advances v batches s b
  rw [isDone, decide_eq_true_iff, emitted, target]
  omega

/-- **Once all points are plotted** the buffer is lit by the points of the whole orbit. -/
theorem buffer_advances {v : Viewport α} {batches : List UInt32} {s : Sampler α}
    {b : PixelBuffer} (done : (advances v batches s b).1.isDone = true) :
    (advances v batches s b).2 = s.drain.2.foldl (lightPoint v s.system.tint) b := by
  have hall : min (capacity batches) (s.target - s.emitted) = s.target - s.emitted := by
    have := (isDone_advances v batches s b).mp done
    omega
  have hplot := congrArg Prod.snd (advances_eq_plot v batches s b)
  have hcollect := congrArg Prod.snd (plot_eq_collect v (s.target - s.emitted) s.burnedIn b #[])
  rw [hall] at hplot
  rw [system_burnedIn] at hcollect
  obtain ⟨emitted, target⟩ := s.counts_burnedIn
  rw [drain, emitted, target]
  exact hplot.trans hcollect

end FractalRender.PointCloud.Sampler
