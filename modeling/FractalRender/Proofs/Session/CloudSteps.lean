import FractalRender.Proofs.Session.Cloud

/-!
# Sessions — how many steps a point cloud takes

Before a pass over a point cloud the batches of points that it takes are announced, and a batch of no
points is counted there as one of one point.  The steps of the pass plot their batches as they are.
So the pass ends with the step that was announced as its last one if its batches have any points,
and never if they have none.  Options are not checked when a session is made with them, so it may be
given such batches.

* `isDone_replicate`: after how many batches of one size all points are plotted.
* `AtPassStart.ended_cloud`, `AtPassStart.endsPass_cloud`: the same for the steps of a pass.
* `AtPassStart.run_cloud`, `AtPassStart.run_empty_batches`: what a run comes to.
* `cloud_steps`: these together, with what is announced.
-/

namespace FractalRender

open PointCloud

/-- How many batches of a size the points of a picture take, if a batch of no points is one of one
point. -/
def PointCloud.batchesNeeded (cap batch : UInt32) : Nat := pointTarget cap ⌈/⌉ (max batch 1).toNat

namespace PointCloud

theorem pointTarget_pos (cap : UInt32) : 0 < pointTarget cap :=
  Nat.lt_of_lt_of_le (by decide) (Nat.le_max_left 30000 _)

theorem batchesNeeded_pos (cap batch : UInt32) : 0 < batchesNeeded cap batch := by
  rw [batchesNeeded, ← bandCount_eq_ceilDiv]
  exact bandCount_pos (pointTarget_pos cap) (bandHeight_pos batch)

/-- Batches that have points need no correction. -/
theorem batchesNeeded_le_iff {cap batch : UInt32} (hb : batch ≠ 0) {k : Nat} :
    batchesNeeded cap batch ≤ k ↔ pointTarget cap ≤ k * batch.toNat := by
  have hpos : 0 < batch.toNat := Nat.pos_of_ne_zero fun h => hb (UInt32.toNat_inj.mp h)
  have hmax : (max batch 1).toNat = batch.toNat := by
    rw [toNat_max, UInt32.toNat_one]
    omega
  rw [batchesNeeded, hmax, ← bandCount_eq_ceilDiv, bandCount_le_iff hpos]

namespace Sampler

theorem capacity_replicate (k : Nat) (batch : UInt32) :
    capacity (List.replicate k batch) = k * batch.toNat := by
  induction k with
  | zero => rw [Nat.zero_mul]; rfl
  | succ k ih =>
      rw [List.replicate_succ, capacity, ih, Nat.succ_mul, Nat.add_comm]

variable {α : Type} [Scalar α]

/-- **Batches of one size** plot all points after as many of them as are needed, and never if they
are batches of no points. -/
theorem isDone_replicate (system : Attractor) (cap batch : UInt32) (v : Viewport α)
    (b : PixelBuffer) (k : Nat) :
    (advances v (List.replicate k batch) (.new system cap) b).1.isDone = true ↔
      batch ≠ 0 ∧ batchesNeeded cap batch ≤ k := by
  rw [isDone_advances, capacity_replicate]
  show pointTarget cap ≤ 0 + k * batch.toNat ↔ _
  rw [Nat.zero_add]
  by_cases hb : batch = 0
  · subst hb
    have := pointTarget_pos cap
    refine iff_of_false ?_ (fun h => h.1 rfl)
    rw [UInt32.toNat_zero, Nat.mul_zero]
    omega
  · rw [batchesNeeded_le_iff hb]
    exact (and_iff_right hb).symm

/-- Batches of no points are counted as 30000, and after so many of them no point is plotted. -/
theorem not_isDone_of_empty_batches :
    batchesNeeded 1 0 = 30000 ∧
      (advances (α := Float) ⟨⟨0.0, 0.0⟩, 1.0⟩ (List.replicate 30000 0) (.new .sierpinski 1)
        (.blank ⟨0, 0⟩)).1.isDone = false := by
  constructor
  · rw [batchesNeeded, Nat.ceilDiv_eq_add_pred_div, toNat_max]
    simp [pointTarget]
  · rw [← Bool.not_eq_true, isDone_replicate]
    exact fun h => h.1 rfl

end Sampler

end PointCloud

namespace Session

variable {α : Type} [Scalar α] [Elementary α]

/-- **A pass over a point cloud** has not ended as long as fewer steps were done than its batches
need, and never ends if they are batches of no points. -/
theorem AtPassStart.ended_cloud {s : Session α} (hs : s.AtPassStart) {system : Attractor}
    (hk : s.config.kind = system.kind) (g : History α) :
    s.ended g = [] ↔ s.options.pointsPerTick = 0 ∨
      stepCount g < batchesNeeded s.config.maxIterations s.options.pointsPerTick := by
  obtain ⟨d, hd, -, -, hw, -⟩ := hs.exists_cloud hk
  have more (i : Nat) : ((Drawing.next s.options)^[i] d).isLast s.options = false ↔
      (s.options.pointsPerTick ≠ 0 →
        i + 1 < batchesNeeded s.config.maxIterations s.options.pointsPerTick) := by
    rw [Drawing.isLast_iterate_points hw, ← Bool.not_eq_true, Sampler.isDone_replicate, not_and,
      Nat.not_le]
  rw [ended_eq_nil_iff_isLast hd]
  simp only [more]
  have := batchesNeeded_pos s.config.maxIterations s.options.pointsPerTick
  by_cases hb : s.options.pointsPerTick = 0
  · exact iff_of_true (fun i _ h => absurd hb h) (.inl hb)
  · rw [or_iff_right hb]
    constructor
    · intro h
      by_contra hge
      have := h (stepCount g - 1) (by omega) hb
      omega
    · intro h i hi _
      omega

/-- The step that its batches need last ends a pass over a point cloud. -/
theorem AtPassStart.endsPass_cloud {s : Session α} (hs : s.AtPassStart) {system : Attractor}
    (hk : s.config.kind = system.kind) (hb : s.options.pointsPerTick ≠ 0) {g : History α}
    (hg : stepCount g + 1 = batchesNeeded s.config.maxIterations s.options.pointsPerTick)
    (now : Float) : ∃ status, s.EndsPass (g ++ [⟨now, .step⟩]) status := by
  have he : s.ended g = [] := (hs.ended_cloud hk g).mpr (.inr (by omega))
  obtain ⟨d, hd, -, -, hw, -⟩ := hs.exists_cloud hk
  refine ⟨_, endsPass_of_isLast hd he ?_ now⟩
  rw [Drawing.isLast_iterate_points hw, Sampler.isDone_replicate]
  exact ⟨hb, hg.ge⟩

/-- What is announced of a pass over a point cloud, until it ends. -/
theorem AtPassStart.total_cloud {s : Session α} (hs : s.AtPassStart) {system : Attractor}
    (hk : s.config.kind = system.kind) {g : History α} (he : s.ended g = []) :
    (s.after g).progress.total.toNat =
      min (batchesNeeded s.config.maxIterations s.options.pointsPerTick) (2 ^ 32 - 1) := by
  obtain ⟨r, now, -, -, rfl⟩ := hs.exists_opening
  have hk : r.config.kind = system.kind := hk
  rw [total_after rfl g he]
  show (Plan.of r.config r.surface r.backend r.options).steps.toNat = _
  simp only [Plan.of, hk, system.renderMode_kind, system.ofKind?_kind]
  exact Sampler.toNat_totalBatches _ _

/-! ### Runs -/

/-- A run of a session at the start of a pass over a point cloud does the steps that its batches
need. -/
theorem AtPassStart.run_cloud {s : Session α} (hs : s.AtPassStart) {system : Attractor}
    (hk : s.config.kind = system.kind) (hb : s.options.pointsPerTick ≠ 0) (clock : Nat → Float) :
    ∃ r, s.runToCompletion clock = some r ∧
      Ran s (steps clock 0 (batchesNeeded s.config.maxIterations s.options.pointsPerTick)) r := by
  obtain ⟨d, hd, -, -, hw, -⟩ := hs.exists_cloud hk
  obtain ⟨n, hn⟩ := Nat.exists_eq_succ_of_ne_zero
    (batchesNeeded_pos s.config.maxIterations s.options.pointsPerTick).ne'
  have pending : s.pending = false := by
    obtain ⟨r, now, -, hr, rfl⟩ := hs.exists_opening
    exact hr
  have last : ((Drawing.next s.options)^[n] d).isLast s.options = true := by
    rw [Drawing.isLast_iterate_points hw, Sampler.isDone_replicate]
    exact ⟨hb, hn.le⟩
  have he : s.ended (steps clock 0 n) = [] :=
    (hs.ended_cloud hk _).mpr (.inr (by rw [hn, stepCount_steps]; exact Nat.lt_succ_self n))
  obtain ⟨drawing, -, more⟩ := after_drawing hd _ he
  rw [stepCount_steps] at drawing more
  -- the last step closes the session, since no step asks for another pass
  have still : (s.after (steps clock 0 n)).pending = false := by
    obtain ⟨progress, hafter⟩ := after_steps hd more clock 0
    rw [hafter]
    exact pending
  have idle : (s.after (steps clock 0 (n + 1))).pass = none := by
    rw [steps_add, after_append]
    show ((s.after (steps clock 0 n)).step (clock (0 + n))).session.pass = none
    rw [step_ended drawing (by rwa [options_after]) (.inl still)]
    rfl
  have fuel : n + 1 < s.stepsLeft := by
    have few : batchesNeeded s.config.maxIterations s.options.pointsPerTick ≤
        pointTarget s.config.maxIterations := by
      rw [batchesNeeded, ← bandCount_eq_ceilDiv]
      exact bandCount_le (bandHeight_pos _)
    rw [stepsLeft, (drawing?_eq_some.mp hd).1]
    omega
  rw [hn]
  exact runFor_of_idle idle fuel

/-- A run over a point cloud in batches of no points does not come to an end, however many steps it
may do. -/
theorem AtPassStart.run_empty_batches {s : Session α} (hs : s.AtPassStart) {system : Attractor}
    (hk : s.config.kind = system.kind) (hb : s.options.pointsPerTick = 0) (clock : Nat → Float)
    (n i : Nat) : runFor clock n i s = none := by
  rw [Option.eq_none_iff_forall_ne_some]
  intro r hr
  obtain ⟨k, hsession, idle⟩ := runFor_after hr
  obtain ⟨d, hd, -⟩ := hs.exists_cloud hk
  have drawing := (after_drawing hd _ ((hs.ended_cloud hk (steps clock i k)).mpr (.inl hb))).drawing
  rw [← hsession, drawing?_eq_none.mpr idle] at drawing
  cases drawing

/-! ### What was announced -/

/-- **A point cloud takes the batches that were announced, unless they are empty.**  With batches of
any points all points are plotted after as many of them as are needed, and not before; as far as a
word can hold it, that number is announced.  So a pass of any session ends with the step that needs
to be its last one, and a run of it comes to its end.  With batches of no points the number that
batches of one point would need is announced, and neither the batches nor the pass nor a run of it
ever come to an end. -/
theorem cloud_steps (system : Attractor) (cap batch : UInt32) :
    (∀ (v : Viewport α) b k,
      (Sampler.advances v (List.replicate k batch) (.new system cap) b).1.isDone = true ↔
        batch ≠ 0 ∧ batchesNeeded cap batch ≤ k) ∧
    ((Sampler.new (α := α) system cap).totalBatches batch).toNat =
      min (batchesNeeded cap batch) (2 ^ 32 - 1) ∧
    ∀ s : Session α, s.AtPassStart → s.config.kind = system.kind → s.config.maxIterations = cap →
      s.options.pointsPerTick = batch →
      (∀ g, s.ended g = [] ↔ batch = 0 ∨ stepCount g < batchesNeeded cap batch) ∧
      (∀ g, s.ended g = [] →
        (s.after g).progress.total.toNat = min (batchesNeeded cap batch) (2 ^ 32 - 1)) ∧
      (batch ≠ 0 →
        (∀ g now, stepCount g + 1 = batchesNeeded cap batch →
          ∃ status, s.EndsPass (g ++ [⟨now, .step⟩]) status) ∧
        ∀ clock, ∃ r, s.runToCompletion clock = some r ∧
          Ran s (steps clock 0 (batchesNeeded cap batch)) r) ∧
      (batch = 0 → ∀ clock n i, runFor clock n i s = none) := by
  refine ⟨Sampler.isDone_replicate system cap batch, Sampler.toNat_totalBatches _ batch, ?_⟩
  rintro s hs hk rfl rfl
  exact ⟨hs.ended_cloud hk, fun g he => hs.total_cloud hk he,
    fun hb => ⟨fun g now hg => hs.endsPass_cloud hk hb hg now, hs.run_cloud hk hb⟩,
    hs.run_empty_batches hk⟩

/-- A session that was given batches of no points announces 30000 of them, and after so many steps
nothing has ended. -/
theorem cloud_steps_sierpinski :
    let o : Options Float := { Options.standard with pointsPerTick := 0 }
    let s : Session Float :=
      ((new (.of .sierpinski 10 .aurora) ⟨2, 2⟩ o).act ⟨0.0, .requestRender⟩).session
    let g : History Float := steps (fun _ => 1.0) 0 30000
    s.ended g = [] ∧ (s.after g).progress.total.toNat = 30000 ∧
      s.runToCompletion (fun _ => 1.0) = none := by
  intro o s g
  have hs : s.AtPassStart := ⟨new _ _ _, ⟨0.0, .requestRender⟩, ⟨_, _, _, [], rfl⟩, rfl, rfl⟩
  have needed : batchesNeeded 10 0 = 30000 := by
    rw [batchesNeeded, Nat.ceilDiv_eq_add_pred_div, toNat_max]
    simp [pointTarget]
  obtain ⟨-, -, sessions⟩ := cloud_steps (α := Float) .sierpinski 10 0
  obtain ⟨ended, total, -, runs⟩ := sessions s hs rfl rfl rfl
  have he : s.ended g = [] := (ended g).mpr (.inl rfl)
  refine ⟨he, ?_, runs rfl _ _ 0⟩
  rw [total g he, needed]
  simp

end Session

end FractalRender
