import FractalRender.Proofs.PointCloud.Orbit
import FractalRender.Scalar.Binary64

/-!
# Point clouds — where the batches are cut

A batch leaves the burn-in behind, if there is any left, and then plots its points.  So a batch of
`m` points and a batch of `n` points do what one batch of `m + n` points does: the second one finds
no burn-in, and goes on with the generator, the orbit and the buffer where the first one stopped.

A sampler is *reachable* (`Reachable`) when batches lead to it from a new one.

* `Reachable.emitted_le`: no more points are plotted than there are to plot.
* `advance_advance`: two batches are one.
* `advances_eq_plot_of_ne_nil`: so are all batches of a list.  Without any batch the burn-in is still
  to come.
* `batches_cut_anywhere`: these together, with what two lists of batches have in common.
-/

namespace FractalRender.PointCloud.Sampler

variable {α : Type} [Scalar α]

/-- Batches led to the sampler from a new one, under whatever views and on whatever buffers. -/
inductive Reachable : Sampler α → Prop where
  | new (system : Attractor) (cap : UInt32) : Reachable (.new system cap)
  | advance {s : Sampler α} (h : Reachable s) (batch : UInt32) (v : Viewport α)
      (b : PixelBuffer) : Reachable (s.advance batch v b).sampler

/-- **No more points are plotted than there are to plot.** -/
theorem Reachable.emitted_le {s : Sampler α} (h : Reachable s) : s.emitted ≤ s.target := by
  induction h with
  | new system cap => exact Nat.zero_le _
  | @advance s _ batch v b ih =>
      obtain ⟨emitted, target⟩ := s.counts_advance batch v b
      rw [emitted, target, batchCount]
      omega

/-! ### One batch -/

/-- The burn-in does not change how many points a batch plots. -/
theorem batchCount_burnedIn (s : Sampler α) (batch : UInt32) :
    s.burnedIn.batchCount batch = s.batchCount batch := by
  obtain ⟨emitted, target⟩ := s.counts_burnedIn
  rw [batchCount, emitted, target, batchCount]

theorem count_advance (s : Sampler α) (batch : UInt32) (v : Viewport α) (b : PixelBuffer) :
    (s.advance batch v b).count = s.batchCount batch :=
  s.batchCount_burnedIn batch

/-- A batch plots its points once the burn-in is behind. -/
theorem advance_eq_plot (s : Sampler α) (batch : UInt32) (v : Viewport α) (b : PixelBuffer) :
    ((s.advance batch v b).sampler, (s.advance batch v b).buffer) =
      plot v (s.batchCount batch) s.burnedIn b := by
  rw [← s.batchCount_burnedIn batch]
  rfl

/-- After a batch no burn-in is left. -/
theorem burnInLeft_advance (s : Sampler α) (batch : UInt32) (v : Viewport α) (b : PixelBuffer) :
    (s.advance batch v b).sampler.burnInLeft = 0 :=
  burnInLeft_plot v _ s.burnedIn b

/-! ### Two batches -/

/-- **Two batches are one.**  They leave the sampler and the buffer that a batch of both sizes
together leaves, and plot as many points. -/
theorem advance_advance {m n : UInt32} (h : m.toNat + n.toNat < UInt32.size) (s : Sampler α)
    (v : Viewport α) (b : PixelBuffer) :
    let first := s.advance m v b
    let second := first.sampler.advance n v first.buffer
    second.sampler = (s.advance (m + n) v b).sampler ∧
      second.buffer = (s.advance (m + n) v b).buffer ∧
      first.count + second.count = (s.advance (m + n) v b).count := by
  intro first second
  have word : (m + n).toNat = m.toNat + n.toNat := by
    rw [UInt32.toNat_add, Nat.mod_eq_of_lt h]
  obtain ⟨emitted, target⟩ := s.counts_advance m v b
  -- what the first batch leaves over is there for the second one
  have counts : s.batchCount (m + n) = s.batchCount m + first.sampler.batchCount n := by
    rw [batchCount, batchCount, batchCount, word, emitted, target, batchCount]
    omega
  have burned : first.sampler.burnedIn = first.sampler :=
    burnedIn_eq_self (s.burnInLeft_advance m v b)
  have both : (second.sampler, second.buffer) =
      ((s.advance (m + n) v b).sampler, (s.advance (m + n) v b).buffer) := by
    calc (second.sampler, second.buffer)
      _ = plot v (first.sampler.batchCount n) first.sampler first.buffer := by
          rw [first.sampler.advance_eq_plot n v first.buffer, burned]
      _ = plot v (s.batchCount m + first.sampler.batchCount n) s.burnedIn b := by
          rw [plot_add, ← s.advance_eq_plot m v b]
      _ = _ := by rw [← counts, s.advance_eq_plot]
  obtain ⟨sampler, buffer⟩ := Prod.mk.inj both
  refine ⟨sampler, buffer, ?_⟩
  rw [count_advance, count_advance, count_advance, counts]

/-! ### Lists of batches -/

/-- After a list of batches no burn-in is left, if there was any batch or no burn-in before. -/
theorem burnInLeft_advances (v : Viewport α) (batches : List UInt32) {s : Sampler α}
    (h : s.burnInLeft = 0) (b : PixelBuffer) :
    (advances v batches s b).1.burnInLeft = 0 := by
  induction batches generalizing s b with
  | nil => exact h
  | cons batch batches ih => exact ih (s.burnInLeft_advance batch v b) _

/-- **Batches are one batch** of as many points as fit into them, but no more than are left. -/
theorem advances_eq_plot_of_ne_nil (v : Viewport α) {batches : List UInt32} (h : batches ≠ [])
    (s : Sampler α) (b : PixelBuffer) :
    advances v batches s b =
      plot v (min (capacity batches) (s.target - s.emitted)) s.burnedIn b := by
  rw [← advances_eq_plot]
  cases batches with
  | nil => exact absurd rfl h
  | cons batch batches =>
      have burned : (advances v (batch :: batches) s b).1.burnedIn =
          (advances v (batch :: batches) s b).1 :=
        burnedIn_eq_self (burnInLeft_advances v batches (s.burnInLeft_advance batch v b) _)
      rw [burned]

/-- **Where the batches are cut does not matter.**  From every sampler that batches lead to, a batch
of `m` and one of `n` points come to a batch of `m + n` points: the same generator, position,
burn-in and count, the same buffer, and as many points plotted.  Lists of batches that reach the same
count leave the same buffer and the same sampler; where one of them is the list without any batch,
that is so once its burn-in is behind.  A batch plots its size or what is left, and never more than
there is to plot. -/
theorem batches_cut_anywhere {s : Sampler α} (hs : s.Reachable) (v : Viewport α)
    (b : PixelBuffer) :
    (∀ m n : UInt32, m.toNat + n.toNat < UInt32.size →
      let first := s.advance m v b
      let second := first.sampler.advance n v first.buffer
      second.sampler = (s.advance (m + n) v b).sampler ∧
        second.buffer = (s.advance (m + n) v b).buffer ∧
        first.count + second.count = (s.advance (m + n) v b).count) ∧
    (∀ batches batches' : List UInt32,
      (advances v batches s b).1.emitted = (advances v batches' s b).1.emitted →
      (advances v batches s b).2 = (advances v batches' s b).2 ∧
        (advances v batches s b).1.burnedIn = (advances v batches' s b).1.burnedIn ∧
        (batches ≠ [] → batches' ≠ [] →
          (advances v batches s b).1 = (advances v batches' s b).1)) ∧
    s.emitted ≤ s.target ∧
    ∀ batch : UInt32, (s.advance batch v b).count = min batch.toNat (s.target - s.emitted) := by
  refine ⟨fun m n h => advance_advance h s v b, ?_, hs.emitted_le, fun batch =>
    s.count_advance batch v b⟩
  intro batches batches' h
  rw [(counts_advances v batches s b).1, (counts_advances v batches' s b).1] at h
  have fits : min (capacity batches) (s.target - s.emitted) =
      min (capacity batches') (s.target - s.emitted) := Nat.add_left_cancel h
  have same := advances_eq_plot v batches s b
  rw [fits, ← advances_eq_plot v batches' s b] at same
  obtain ⟨sampler, buffer⟩ := Prod.mk.inj same
  refine ⟨buffer, sampler, ?_⟩
  intro some some'
  rw [advances_eq_plot_of_ne_nil v some, advances_eq_plot_of_ne_nil v some', fits]

/-- After a batch of 7 points, batches of 2, none and 3 points leave what one batch of 5 points
leaves. -/
theorem batches_cut_anywhere_sierpinski :
    let v : Viewport Float := ⟨⟨0.5, 0.35⟩, 0.5⟩
    let b := PixelBuffer.blank ⟨2, 2⟩
    let s := ((Sampler.new .sierpinski 10).advance 7 v b).sampler
    advances v [2, 0, 3] s b = advances v [5] s b ∧ (s.advance 5 v b).count = 5 := by
  intro v b s
  have hs : s.Reachable := .advance (.new .sierpinski 10) 7 v b
  obtain ⟨-, lists, -, count⟩ := batches_cut_anywhere hs v b
  have first : (Sampler.new (α := Float) .sierpinski 10).batchCount 7 = 7 := by
    simp [batchCount, Sampler.new, pointTarget]
  have counts : s.emitted = 7 ∧ s.target = 30000 := by
    obtain ⟨emitted, target⟩ := counts_advance (.new .sierpinski 10) 7 v b
    rw [emitted, first, target]
    simp [Sampler.new, pointTarget]
  have same : (advances v [2, 0, 3] s b).1.emitted = (advances v [5] s b).1.emitted := by
    rw [(counts_advances v _ s b).1, (counts_advances v _ s b).1]
    simp [capacity]
  obtain ⟨buffer, -, sampler⟩ := lists [2, 0, 3] [5] same
  refine ⟨Prod.ext (sampler (List.cons_ne_nil _ _) (List.cons_ne_nil _ _)) buffer, ?_⟩
  rw [count, counts.1, counts.2]
  simp

end FractalRender.PointCloud.Sampler
