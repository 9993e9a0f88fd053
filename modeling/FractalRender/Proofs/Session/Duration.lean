import FractalRender.Proofs.Session.Coalesce
import FractalRender.Proofs.Session.Pointwise
import Mathlib.Algebra.Order.Floor.Div

/-!
# Sessions — how long passes and runs take

With options that a session can work with, every step does some work, so every pass ends.

* `Drawing.remaining_next`: each step of a drawing but the last leaves it one step shorter.
* `passSteps`: how many steps a pass takes; `plan_steps` says that it is both the work that a plan
  is to do and, as far as it fits a word, the number that the plan announces.
* `pass_takes`, `endsPass_of_passSteps`: a pass ends with exactly that step, whatever else is done
  meanwhile.
* `ended_steps`: the pass under way ends after the steps that remain, and the one that was asked for
  meanwhile starts.
* `run_ends`: a run comes to its end, with the passes that it ended, and a pass takes the steps that
  were announced.
-/

namespace FractalRender

variable {α : Type} [Scalar α] [Elementary α]

/-! ### Batches -/

/-- Batches are rounded up. -/
theorem bandCount_eq_ceilDiv (n batch : Nat) : bandCount n batch = n ⌈/⌉ batch :=
  (Nat.ceilDiv_eq_add_pred_div n batch).symm

/-- So many batches are enough when all of it fits into them. -/
theorem bandCount_le_iff {n batch k : Nat} (hb : 0 < batch) :
    bandCount n batch ≤ k ↔ n ≤ k * batch := by
  rw [bandCount_eq_ceilDiv, ceilDiv_le_iff_le_mul hb, Nat.mul_comm]

/-- After one batch there is one batch less, as long as there was something in it. -/
theorem bandCount_sub {n batch : Nat} (hb : 0 < batch) :
    bandCount (n - batch) batch = bandCount n batch - 1 := by
  refine Nat.le_antisymm ?_ ?_
  · rw [bandCount_le_iff hb]
    have := (bandCount_le_iff hb).mp (le_refl (bandCount n batch))
    rw [Nat.sub_one_mul]
    omega
  · rw [Nat.sub_le_iff_le_add, bandCount_le_iff hb, Nat.succ_mul]
    have := (bandCount_le_iff hb).mp (le_refl (bandCount (n - batch) batch))
    omega

omit [Scalar α] [Elementary α] in
/-- The batches of a picture are announced as far as they fit a word, and a batch of no points is
announced as one of one point. -/
theorem PointCloud.Sampler.toNat_totalBatches (s : Sampler α) (batch : UInt32) :
    (s.totalBatches batch).toNat = min (s.target ⌈/⌉ (max batch 1).toNat) (2 ^ 32 - 1) := by
  rw [totalBatches, bandCount_eq_ceilDiv]
  exact UInt32.toNat_ofNat_of_lt' (by simp only [UInt32.size]; omega)

/-! ### The steps that a drawing still takes -/

omit [Scalar α] [Elementary α] in
/-- How many steps work still takes: its bands, or the batches of its points, but one at least. -/
def Work.remaining (o : Options α) : Work α → Nat
  | .pixels _ bands i => max 1 (bands.size - i)
  | .points s => max 1 (bandCount (s.target - s.emitted) o.pointsPerTick.toNat)
  | .curve | .unavailable => 1

namespace Drawing

omit [Scalar α] [Elementary α] in
/-- How many steps a drawing still takes. -/
def remaining (o : Options α) (d : Drawing α) : Nat := d.pass.work.remaining o

omit [Scalar α] [Elementary α] in
theorem remaining_pos (o : Options α) (d : Drawing α) : 0 < d.remaining o := by
  rw [remaining]
  cases d.pass.work with
  | pixels k bands i => exact Nat.le_max_left _ _
  | points s => exact Nat.le_max_left _ _
  | curve => exact Nat.one_pos
  | unavailable => exact Nat.one_pos

variable {o : Options α} (ho : 0 < o.pointsPerTick.toNat)

include ho

/-- **The last step** is the one after which nothing remains. -/
theorem isLast_eq (d : Drawing α) : d.isLast o = decide (d.remaining o ≤ 1) := by
  rw [remaining, isLast, work]
  cases hw : d.pass.work with
  | pixels k bands i =>
      rw [Work.remaining]
      by_cases hi : i < bands.size
      · rw [Pass.advance_pixels hw hi]
        exact decide_eq_decide.mpr (by omega)
      · simp only [Pass.advance, hw, Array.getElem?_eq_none (Nat.le_of_not_lt hi)]
        exact (decide_eq_true (by omega)).symm
  | points s =>
      obtain ⟨he, ht⟩ := s.counts_advance o.pointsPerTick d.pass.viewport d.buffer
      rw [Pass.advance_points hw, PointCloud.Sampler.isDone, Work.remaining]
      refine decide_eq_decide.mpr ?_
      rw [he, ht, PointCloud.Sampler.batchCount, max_le_iff, bandCount_le_iff ho, Nat.one_mul]
      omega
  | curve =>
      rw [Pass.advance_curve hw]
      rfl
  | unavailable =>
      rw [Pass.advance_unavailable hw]
      rfl

/-- **Each step but the last leaves a drawing one step shorter.** -/
theorem remaining_next {d : Drawing α} (hl : d.isLast o = false) :
    (d.next o).remaining o + 1 = d.remaining o := by
  rw [isLast_eq ho] at hl
  have hmore : 1 < d.remaining o := Nat.lt_of_not_le (of_decide_eq_false hl)
  rw [remaining] at hmore ⊢
  rw [remaining, next, work]
  cases hw : d.pass.work with
  | pixels k bands i =>
      rw [hw, Work.remaining] at hmore
      rw [Pass.advance_pixels hw (by omega), Work.remaining, Work.remaining]
      omega
  | points s =>
      obtain ⟨he, ht⟩ := s.counts_advance o.pointsPerTick d.pass.viewport d.buffer
      -- what is left after the step is what was left, less a batch
      have hleft : s.target - (s.emitted + s.batchCount o.pointsPerTick) =
          s.target - s.emitted - o.pointsPerTick.toNat := by
        rw [PointCloud.Sampler.batchCount]
        omega
      rw [hw, Work.remaining] at hmore
      rw [Pass.advance_points hw, Work.remaining, Work.remaining, he, ht, hleft, bandCount_sub ho]
      omega
  | curve =>
      rw [hw] at hmore
      exact absurd hmore (Nat.lt_irrefl 1)
  | unavailable =>
      rw [hw] at hmore
      exact absurd hmore (Nat.lt_irrefl 1)

omit ho in
/-- The steps of a pass do not change what it draws. -/
theorem scene_iterate_next (n : Nat) (d : Drawing α) :
    ((Drawing.next o)^[n] d).pass.scene = d.pass.scene := by
  induction n generalizing d with
  | zero => rfl
  | succ n ih => exact (ih (d.next o)).trans rfl

/-- A drawing ends with the last of its steps and not before. -/
theorem isLast_iterate {d : Drawing α} {i : Nat} (hi : i < d.remaining o) :
    ((Drawing.next o)^[i] d).isLast o = decide (d.remaining o ≤ i + 1) := by
  induction i generalizing d with
  | zero => exact isLast_eq ho d
  | succ i ih =>
      have hl : d.isLast o = false := by
        rw [isLast_eq ho]
        exact decide_eq_false (by omega)
      have := remaining_next ho hl
      rw [Function.iterate_succ_apply, ih (by omega)]
      exact decide_eq_decide.mpr (by omega)

end Drawing

namespace Session

/-! ### The steps of a pass -/

/-- How many steps a pass over the session takes. -/
def passSteps (s : Session α) : Nat :=
  match s.config.kind.renderMode with
  | .escapeTime | .dynamical =>
    match s.kernel.source with
    | .unavailable => 1
    | .interpreted | .compiled _ _ => s.surface.height.toNat ⌈/⌉ s.options.rowsPerTick.toNat
  | .pointCloud =>
    max 30000 (900 * s.config.maxIterations.toNat) ⌈/⌉ s.options.pointsPerTick.toNat
  | .lSystem => 1

/-- A pass that draws pixel by pixel takes a step for each band. -/
theorem passSteps_pixels {s : Session α} (mode : s.config.kind.Pointwise)
    (source : s.kernel.source ≠ .unavailable) :
    s.passSteps = s.surface.height.toNat ⌈/⌉ s.options.rowsPerTick.toNat := by
  rcases mode with mode | mode
  all_goals
    simp only [passSteps, mode]
    split
    · next hs => exact absurd hs source
    · rfl
    · rfl

theorem passSteps_unavailable {s : Session α} (mode : s.config.kind.Pointwise)
    (source : s.kernel.source = .unavailable) : s.passSteps = 1 := by
  rcases mode with mode | mode
  all_goals simp only [passSteps, mode, source]

omit [Elementary α] in
/-- What a session can work with does some work at each step. -/
theorem budgets_pos {o : Options α} (ho : o.validate = .ok o) :
    0 < o.rowsPerTick.toNat ∧ 0 < o.pointsPerTick.toNat := by
  have pos {n : UInt32} (hn : n ≠ 0) : 0 < n.toNat :=
    Nat.pos_of_ne_zero fun h => hn (UInt32.toNat_inj.mp h)
  rw [Options.validate] at ho
  split at ho
  · cases ho
  · next hr =>
      split at ho
      · cases ho
      · next hp => exact ⟨pos hr, pos hp⟩

/-- **A plan takes the steps of a pass**, and announces them as far as they fit a word. -/
theorem plan_steps {s : Session α} (ho : s.options.validate = .ok s.options)
    (hf : s.surface.isEmpty = false) :
    (Plan.of s.config s.surface s.backend s.options).work.remaining s.options = s.passSteps ∧
      (Plan.of s.config s.surface s.backend s.options).steps.toNat =
        min s.passSteps (2 ^ 32 - 1) := by
  obtain ⟨hr, hp⟩ := budgets_pos ho
  have atLeast {n : UInt32} (hn : 0 < n.toNat) : (max n 1).toNat = n.toNat := by
    rw [toNat_max, UInt32.toNat_one]
    omega
  have hshape := Plan.of_shape s.config s.surface s.backend s.options
  generalize Plan.of s.config s.surface s.backend s.options = plan at hshape ⊢
  cases hshape with
  | pixels notes mode source =>
      have hsize : (rowBands s.surface s.options.rowsPerTick).size = s.passSteps := by
        rw [size_rowBands, passSteps_pixels mode source, atLeast hr, bandCount_eq_ceilDiv]
      have hpos := size_rowBands_pos hf s.options.rowsPerTick
      -- there are no more bands than rows
      have hle : (rowBands s.surface s.options.rowsPerTick).size ≤ s.surface.height.toNat := by
        rw [size_rowBands]
        exact bandCount_le (bandHeight_pos _)
      have hword := s.surface.height.toNat_lt
      rw [← hsize]
      refine ⟨?_, ?_⟩
      · show max 1 (_ - 0) = _
        omega
      · rw [UInt32.toNat_ofNat_of_lt' (hle.trans_lt hword)]
        omega
  | points system mode attractor =>
      have htarget : PointCloud.pointTarget s.config.maxIterations =
          max 30000 (900 * s.config.maxIterations.toNat) := by
        rw [PointCloud.pointTarget, Nat.mul_comm]
      have hsteps : bandCount (PointCloud.pointTarget s.config.maxIterations)
          s.options.pointsPerTick.toNat = s.passSteps := by
        rw [bandCount_eq_ceilDiv, htarget]
        simp only [passSteps, mode]
      have hpos : 0 < s.passSteps := by
        rw [← hsteps]
        exact bandCount_pos (by rw [htarget]; omega) hp
      refine ⟨?_, ?_⟩
      · show max 1 (bandCount (PointCloud.pointTarget s.config.maxIterations - 0) _) = _
        rw [Nat.sub_zero, hsteps]
        omega
      · show (PointCloud.Sampler.totalBatches _ _).toNat = _
        rw [PointCloud.Sampler.toNat_totalBatches, atLeast hp, ← hsteps, bandCount_eq_ceilDiv]
        rfl
  | curve mode =>
      rw [show s.passSteps = 1 by simp only [passSteps, mode]]
      exact ⟨rfl, rfl⟩
  | unavailable notes mode source =>
      rw [passSteps_unavailable mode source]
      exact ⟨rfl, rfl⟩

/-- **A drawing under way** takes the steps that remain, whatever else is done meanwhile. -/
theorem ended_eq_nil_iff_remaining {s : Session α} (hp : 0 < s.options.pointsPerTick.toNat)
    {d : Drawing α} (hd : s.drawing? = some d) (g : History α) :
    s.ended g = [] ↔ stepCount g < d.remaining s.options :=
  ended_eq_nil_iff_stepCount_lt hd (d.remaining_pos _) (fun _ => Drawing.isLast_iterate hp) g

/-- As long as the pass under way has not ended, what was announced stays. -/
theorem total_after {s : Session α} (hp : s.pass.isSome = true) (g : History α)
    (he : s.ended g = []) : (s.after g).progress.total = s.progress.total := by
  induction g generalizing s with
  | nil => rfl
  | cons a g ih =>
      obtain ⟨p, hpass⟩ := Option.isSome_iff_exists.mp hp
      obtain ⟨hf, hrest⟩ := (ended_cons_eq_nil hpass).mp he
      have hact : (s.act a).session.progress.total = s.progress.total := by
        revert hf
        refine act_cases fun r t log tr => ?_
        intro hf
        cases tr with
        | started c slot op surface pass => simp [pass] at hp
        | ended d op drawing last next => cases hf
        | restarted d op drawing last pending surface => cases hf
        | _ => rfl
      rw [after_cons, ih (pending_act hp hf).1 hrest, hact]

/-- **A pass takes exactly the steps that were announced.** -/
theorem pass_takes {s : Session α} (hs : s.AtPassStart)
    (ho : s.options.validate = .ok s.options) (g : History α) :
    (s.ended g = [] ↔ stepCount g < s.passSteps) ∧
      (s.ended g = [] → (s.after g).progress.total.toNat = min s.passSteps (2 ^ 32 - 1)) := by
  obtain ⟨r, now, hf, -, rfl⟩ := hs.exists_opening
  obtain ⟨hwork, htotal⟩ := plan_steps (s := r) ho hf
  refine ⟨?_, fun he => ?_⟩
  · have := ended_eq_nil_iff_remaining (s := (r.startPass now).1) (budgets_pos ho).2
      (d := r.opening now) rfl g
    rw [this]
    exact hwork ▸ Iff.rfl
  · rw [total_after rfl g he]
    exact htotal

/-- The history whose last step is the last one of a pass ends the pass. -/
theorem endsPass_of_passSteps {s : Session α} (hs : s.AtPassStart)
    (ho : s.options.validate = .ok s.options) {g : History α} (hg : stepCount g + 1 = s.passSteps)
    (now : Float) : ∃ status, s.EndsPass (g ++ [⟨now, .step⟩]) status := by
  have he : s.ended g = [] := (pass_takes hs ho g).1.mpr (by omega)
  obtain ⟨r, start, hf, -, rfl⟩ := hs.exists_opening
  have hremaining : (r.opening start).remaining r.options = r.passSteps :=
    (plan_steps (s := r) ho hf).1
  have hg : stepCount g + 1 = r.passSteps := hg
  refine ⟨_, endsPass_of_isLast (d := r.opening start) rfl he ?_ now⟩
  show ((Drawing.next r.options)^[stepCount g] (r.opening start)).isLast r.options = true
  rw [Drawing.isLast_iterate (o := r.options) (budgets_pos ho).2 (by omega), hremaining]
  exact decide_eq_true hg.ge

/-! ### A run -/

/-- Steps that do not end the pass under way carry its drawing on and touch nothing that a pass
starts with. -/
theorem after_steps {s : Session α} {d : Drawing α} (hd : s.drawing? = some d) {n : Nat}
    (hl : ∀ j < n, ((Drawing.next s.options)^[j] d).isLast s.options = false)
    (clock : Nat → Float) (i : Nat) :
    ∃ progress, s.after (steps clock i n) =
      { s with
        buffer := ((Drawing.next s.options)^[n] d).buffer
        pass := some ((Drawing.next s.options)^[n] d).pass
        progress } := by
  induction n generalizing s d i with
  | zero =>
      obtain ⟨hp, hb⟩ := drawing?_eq_some.mp hd
      refine ⟨s.progress, ?_⟩
      rw [Function.iterate_zero_apply, ← hp, ← hb]
      rfl
  | succ n ih =>
      have hstep : (s.act ⟨clock i, .step⟩).session = s.carryOn d (clock i) := by
        show (s.step (clock i)).session = _
        rw [step_advanced hd (hl 0 (Nat.succ_pos n))]
      obtain ⟨progress, h⟩ := ih (s := s.carryOn d (clock i)) (d := d.next s.options) rfl
        (fun j hj => hl (j + 1) (Nat.succ_lt_succ hj)) (i + 1)
      refine ⟨progress, ?_⟩
      rw [steps_succ, after_cons, hstep, h, Function.iterate_succ_apply]
      rfl

end Session

end FractalRender
