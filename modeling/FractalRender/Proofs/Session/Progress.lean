import FractalRender.Proofs.Session.Duration
import Mathlib.Tactic.TFAE

/-!
# Progress — how steps are counted

A step is added to the count, and then the count is held to its total.  So after `k` steps it shows
`min k total`, unless the sum does not fit a word.  That takes the largest word as the total, which
is what is announced of a point cloud with too many batches for a word, and as many steps.  The next
one finds the count at its end: a build with overflow checks stops there, and one without them
starts the count over from 0.

* `toNat_completed_recordStepUnchecked`, `completed_recordsUnchecked`: the count after one step and
  after many, in a build without overflow checks.
* `records_eq`: what a build with them records, and when it stops.
* `counted_tfae`: when the count is as it should be in either build, when each sum fits, and when
  the count never falls; these come to the same.
* `progress_after`: while a pass is under way, the progress of the session is that of its steps.
* `eq_of_checkedAfter`, `AtPassStart.checkedAfter`: with overflow checks a session does the same, or
  it stops; in a pass it stops at the first step that cannot be counted.
* `progress_counts`: these together, with what the progress shows at the end.
-/

namespace FractalRender

namespace Progress

/-- The progress after steps at the given times, of as many as were announced. -/
def records (total : UInt32) (times : List Float) : Except Overflow Progress :=
  times.foldlM recordStep (new total)

/-- The progress after steps at the given times, in a build without overflow checks. -/
def recordsUnchecked (total : UInt32) (times : List Float) : Progress :=
  times.foldl recordStepUnchecked (new total)

/-- What the count shows after `k` steps, if nothing stops it. -/
def shown (total : UInt32) (k : Nat) : Nat :=
  if total.toNat + 1 < UInt32.size then min k total.toNat else k % UInt32.size

/-- So many steps can be counted: the total leaves room for one more, or the steps fit a word. -/
def Fits (total : UInt32) (n : Nat) : Prop := total.toNat + 1 < UInt32.size ∨ n < UInt32.size

instance (total : UInt32) (n : Nat) : Decidable (Fits total n) :=
  inferInstanceAs (Decidable (_ ∨ _))

/-- Fewer steps can be counted too. -/
theorem Fits.mono {total : UInt32} {k n : Nat} (h : Fits total n) (hk : k ≤ n) : Fits total k :=
  h.imp_right hk.trans_lt

/-! ### Steps without overflow checks -/

theorem recordsUnchecked_concat (total : UInt32) (times : List Float) (t : Float) :
    recordsUnchecked total (times ++ [t]) = (recordsUnchecked total times).recordStepUnchecked t :=
  List.foldl_concat _ _ _ _

/-- **One step** is added before the count is held to its total. -/
theorem toNat_completed_recordStepUnchecked (p : Progress) (t : Float) :
    (p.recordStepUnchecked t).completed.toNat =
      min ((p.completed.toNat + 1) % UInt32.size) p.total.toNat := by
  rw [recordStepUnchecked, toNat_min, UInt32.toNat_add]
  rfl

theorem total_recordsUnchecked (total : UInt32) (times : List Float) :
    (recordsUnchecked total times).total = total := by
  induction times using List.reverseRecOn with
  | nil => rfl
  | append_singleton times t ih =>
      rw [recordsUnchecked_concat]
      exact ih

/-- What the count shows after one step more. -/
theorem shown_succ (total : UInt32) (k : Nat) :
    shown total (k + 1) = min ((shown total k + 1) % UInt32.size) total.toNat := by
  have word := total.toNat_lt_size
  simp only [shown, UInt32.size] at *
  split <;> omega

/-- **The count after any number of steps.** -/
theorem completed_recordsUnchecked (total : UInt32) (times : List Float) :
    (recordsUnchecked total times).completed.toNat = shown total times.length := by
  induction times using List.reverseRecOn with
  | nil => simp [recordsUnchecked, new, shown]
  | append_singleton times t ih =>
      rw [recordsUnchecked_concat, toNat_completed_recordStepUnchecked, ih, total_recordsUnchecked,
        List.length_append, List.length_singleton, shown_succ]

/-! ### Steps with overflow checks -/

/-- One step more can be counted when the steps before it can and there is room for it. -/
theorem fits_succ (total : UInt32) (k : Nat) :
    Fits total (k + 1) ↔ Fits total k ∧ shown total k + 1 < UInt32.size := by
  simp only [Fits, shown, UInt32.size]
  split <;> omega

theorem records_concat (total : UInt32) (times : List Float) (t : Float) :
    records total (times ++ [t]) = (records total times).bind (·.recordStep t) := by
  rw [records, List.foldlM_append]
  exact congrArg _ (funext fun p => bind_pure (p.recordStep t))

/-- **With overflow checks** the same is recorded, as long as the steps can be counted; the first
one that cannot is the end. -/
theorem records_eq (total : UInt32) (times : List Float) : records total times =
    if Fits total times.length then .ok (recordsUnchecked total times) else .error .sum := by
  induction times using List.reverseRecOn with
  | nil =>
      have none : Fits total ([] : List Float).length := .inr (by decide : 0 < UInt32.size)
      exact (if_pos none).symm
  | append_singleton times t ih =>
      rw [records_concat, ih, List.length_append, List.length_singleton]
      by_cases before : Fits total times.length
      · rw [if_pos before]
        show (recordsUnchecked total times).recordStep t = _
        rw [recordStep_eq, completed_recordsUnchecked, recordsUnchecked_concat]
        simp only [fits_succ, before, true_and]
      · rw [if_neg before, if_neg fun h => before (h.mono (Nat.le_succ _))]
        rfl

/-! ### When the count is as it should be -/

theorem shown_of_fits {total : UInt32} {k : Nat} (h : Fits total k) :
    shown total k = min k total.toNat := by
  rw [shown]
  split
  · rfl
  · next full =>
      have fits : k < UInt32.size := h.resolve_left full
      rw [Nat.mod_eq_of_lt fits]
      omega

/-- What does not fit comes to the largest word, and then to 0. -/
theorem shown_of_not_fits {total : UInt32} {n : Nat} (h : ¬ Fits total n) :
    UInt32.size ≤ n ∧ shown total (UInt32.size - 1) = UInt32.size - 1 ∧
      shown total UInt32.size = 0 := by
  obtain ⟨full, long⟩ := not_or.mp h
  refine ⟨Nat.le_of_not_lt long, ?_, ?_⟩
  · rw [shown, if_neg full]
    rfl
  · rw [shown, if_neg full, Nat.mod_self]

/-- **When steps are counted as they should be.**  The following come to the same: so many steps
can be counted; with overflow checks the count is the number of steps up to the total, all along;
without them it is; no sum on the way is too large for a word; the count never falls. -/
theorem counted_tfae (total : UInt32) (times : List Float) :
    [Fits total times.length,
      ∀ k ≤ times.length, ∃ p, records total (times.take k) = .ok p ∧
        p.completed.toNat = min k total.toNat,
      ∀ k ≤ times.length,
        (recordsUnchecked total (times.take k)).completed.toNat = min k total.toNat,
      ∀ k < times.length,
        (recordsUnchecked total (times.take k)).completed.toNat + 1 < UInt32.size,
      ∀ j k, j ≤ k → k ≤ times.length → (recordsUnchecked total (times.take j)).completed ≤
        (recordsUnchecked total (times.take k)).completed].TFAE := by
  have length {k : Nat} (hk : k ≤ times.length) : (times.take k).length = k :=
    List.length_take_of_le hk
  have count {k : Nat} (hk : k ≤ times.length) :
      (recordsUnchecked total (times.take k)).completed.toNat = shown total k := by
    rw [completed_recordsUnchecked, length hk]
  tfae_have 1 → 2 := by
    intro h k hk
    have room : Fits total (times.take k).length := by
      rw [length hk]
      exact h.mono hk
    refine ⟨_, (records_eq _ _).trans (if_pos room), ?_⟩
    rw [count hk, shown_of_fits (h.mono hk)]
  tfae_have 2 → 1 := by
    intro h
    obtain ⟨p, hp, -⟩ := h times.length le_rfl
    rw [List.take_length, records_eq] at hp
    by_contra hn
    rw [if_neg hn] at hp
    cases hp
  tfae_have 1 → 3 := fun h k hk => (count hk).trans (shown_of_fits (h.mono hk))
  tfae_have 1 → 4 := by
    intro h k hk
    rw [count hk.le, shown_of_fits (h.mono hk.le)]
    rcases h with room | short
    · omega
    · omega
  tfae_have 1 → 5 := by
    intro h j k hj hk
    rw [UInt32.le_iff_toNat_le, count (hj.trans hk), count hk, shown_of_fits (h.mono (hj.trans hk)),
      shown_of_fits (h.mono hk)]
    omega
  tfae_have 3 → 1 := by
    intro h
    by_contra hn
    obtain ⟨long, -, last⟩ := shown_of_not_fits hn
    have wrong := h UInt32.size long
    rw [count long, last] at wrong
    have positive : 0 < UInt32.size := by decide
    have full : ¬ total.toNat + 1 < UInt32.size := (not_or.mp hn).1
    simp only [UInt32.size] at *
    omega
  tfae_have 4 → 1 := by
    intro h
    by_contra hn
    obtain ⟨long, full, -⟩ := shown_of_not_fits hn
    have before : UInt32.size - 1 < times.length :=
      (Nat.sub_one_lt (by decide)).trans_le long
    have fitted := h _ before
    rw [count before.le, full] at fitted
    exact absurd fitted (by decide)
  tfae_have 5 → 1 := by
    intro h
    by_contra hn
    obtain ⟨long, full, last⟩ := shown_of_not_fits hn
    have order : UInt32.size - 1 ≤ UInt32.size := Nat.sub_le _ _
    have grown := h _ _ order long
    rw [UInt32.le_iff_toNat_le, count (order.trans long), count long, full, last] at grown
    exact absurd grown (by decide)
  tfae_finish

/-- Steps that are counted to the end of the words, and one step more: with overflow checks it is
not counted, and without them the count starts over. -/
theorem not_counted_of_largest_total :
    (records 4294967295 (List.replicate (2 ^ 32 - 1) 1.0)).map (·.completed) = .ok 4294967295 ∧
      (records 4294967295 (List.replicate (2 ^ 32) 1.0)).map (·.completed) = .error .sum ∧
      (recordsUnchecked 4294967295 (List.replicate (2 ^ 32) 1.0)).completed = 0 ∧
      min (2 ^ 32) (4294967295 : UInt32).toNat = 4294967295 := by
  have fits : Fits 4294967295 (2 ^ 32 - 1) := .inr (by decide)
  have full : ¬ Fits 4294967295 (2 ^ 32) := by
    rw [Fits]
    decide
  refine ⟨?_, ?_, ?_, rfl⟩
  · rw [records_eq, List.length_replicate, if_pos fits]
    refine congrArg Except.ok ?_
    rw [← UInt32.toNat_inj, completed_recordsUnchecked, List.length_replicate]
    rfl
  · rw [records_eq, List.length_replicate, if_neg full]
    rfl
  · rw [← UInt32.toNat_inj, completed_recordsUnchecked, List.length_replicate]
    rfl

end Progress

/-! ### The progress of a pass -/

namespace Session

variable {α : Type} [Scalar α] [Elementary α]

/-- What an action does to the progress of the pass under way, when the pass does not end. -/
theorem progress_act {s : Session α} (hp : s.pass.isSome = true) {a : Action α}
    (hf : (s.act a).result.finished? = none) : ∃ times : List Float, times.length = stepCount [a] ∧
      (s.act a).session.progress = times.foldl Progress.recordStepUnchecked s.progress := by
  have other (op : a.operation.isStep = false) : ([] : List Float).length = stepCount [a] := by
    simp [stepCount, op]
  revert hf
  refine act_cases fun r t log tr => ?_
  intro hf
  cases tr with
  | refused e op => exact ⟨[], other op, rfl⟩
  | noted slot op => exact ⟨[], other op, rfl⟩
  | empty c slot op surface => exact ⟨[], other op, rfl⟩
  | deferred c slot op surface pass policy => exact ⟨[], other op, rfl⟩
  | dropped c slot op surface pass policy => exact ⟨[], other op, rfl⟩
  | started c slot op surface pass => simp [pass] at hp
  | idle op pass => simp [pass] at hp
  | advanced d op drawing last =>
      exact ⟨[a.now - d.pass.startedMs], by simp [stepCount, op, Operation.isStep], rfl⟩
  | ended d op drawing last next => cases hf
  | restarted d op drawing last pending surface => cases hf

/-- **While a pass is under way**, the progress of the session is what its steps recorded. -/
theorem progress_after {s : Session α} (hp : s.pass.isSome = true) (g : History α)
    (he : s.ended g = []) : ∃ times : List Float, times.length = stepCount g ∧
      (s.after g).progress = times.foldl Progress.recordStepUnchecked s.progress := by
  induction g generalizing s with
  | nil => exact ⟨[], rfl, rfl⟩
  | cons a g ih =>
      obtain ⟨p, hpass⟩ := Option.isSome_iff_exists.mp hp
      obtain ⟨hf, hrest⟩ := (ended_cons_eq_nil hpass).mp he
      obtain ⟨first, hfirst, hact⟩ := progress_act hp hf
      obtain ⟨times, htimes, hafter⟩ := ih (pending_act hp hf).1 hrest
      refine ⟨first ++ times, ?_, ?_⟩
      · rw [List.length_append, hfirst, htimes]
        exact (stepCount_append [a] g).symm
      · rw [after_cons, hafter, hact, List.foldl_append]

/-- A pass counts its steps from 0. -/
theorem AtPassStart.completed_after {s : Session α} (hs : s.AtPassStart) (g : History α)
    (he : s.ended g = []) : (s.after g).progress.total = s.progress.total ∧
      (s.after g).progress.completed.toNat = Progress.shown s.progress.total (stepCount g) := by
  obtain ⟨r, now, -, -, rfl⟩ := hs.exists_opening
  obtain ⟨times, hlength, hprogress⟩ := progress_after (s := (r.startPass now).1) rfl g he
  have records : ((r.startPass now).1.after g).progress =
      Progress.recordsUnchecked (r.startPass now).1.progress.total times := hprogress
  rw [records, ← hlength]
  exact ⟨Progress.total_recordsUnchecked _ _, Progress.completed_recordsUnchecked _ _⟩

/-- A pass that takes more steps than fit a word counts them as a word does. -/
theorem AtPassStart.completed_of_usable {s : Session α} (hs : s.AtPassStart) (g : History α)
    (he : s.ended g = []) (ho : s.options.validate = .ok s.options) :
    (s.after g).progress.completed.toNat = stepCount g % UInt32.size := by
  obtain ⟨takes, total⟩ := pass_takes hs ho g
  obtain ⟨kept, counted⟩ := hs.completed_after g he
  have before : stepCount g < s.passSteps := takes.mp he
  have announced : s.progress.total.toNat = min s.passSteps (UInt32.size - 1) := by
    rw [← kept]
    exact total he
  rw [counted, Progress.shown]
  split
  · next room =>
      simp only [UInt32.size] at *
      omega
  · rfl

/-! ### Sessions with overflow checks -/

theorem checkedStep_idle {s : Session α} (hp : s.pass = none) (now : Float) :
    s.checkedStep now = .ok (s.step now) := by
  simp only [checkedStep, hp]

/-- While a pass is under way, the count has to have room for a step. -/
theorem checkedStep_pass {s : Session α} {p : Pass α} (hp : s.pass = some p) (now : Float) :
    s.checkedStep now = if s.progress.completed.toNat + 1 < UInt32.size then .ok (s.step now)
      else .error .sum := by
  simp only [checkedStep, hp, Progress.recordStep_eq]
  split <;> rfl

/-- What is done with overflow checks is what is done without them. -/
theorem eq_of_checkedAct {s t : Session α} {a : Action α} (h : s.checkedAct a = .ok t) :
    t = (s.act a).session := by
  obtain ⟨now, op⟩ := a
  cases op with
  | step =>
      have h : (s.checkedStep now).map (·.session) = .ok t := h
      cases hp : s.pass with
      | none =>
          rw [checkedStep_idle hp] at h
          exact (Except.ok.inj h).symm
      | some p =>
          rw [checkedStep_pass hp] at h
          split at h
          · exact (Except.ok.inj h).symm
          · cases h
  | _ => exact (Except.ok.inj h).symm

/-- **A history with overflow checks** that is not stopped does what it does without them. -/
theorem eq_of_checkedAfter {s t : Session α} {g : History α} (h : s.checkedAfter g = .ok t) :
    t = s.after g := by
  induction g generalizing s with
  | nil => exact (Except.ok.inj h).symm
  | cons a g ih =>
      have h : (s.checkedAct a).bind (·.checkedAfter g) = .ok t := h
      cases hact : s.checkedAct a with
      | error e =>
          rw [hact] at h
          cases h
      | ok r =>
          rw [hact] at h
          rw [after_cons, ← eq_of_checkedAct hact]
          exact ih h

theorem checkedAfter_concat (s : Session α) (g : History α) (a : Action α) :
    s.checkedAfter (g ++ [a]) = (s.checkedAfter g).bind (·.checkedAct a) := by
  rw [checkedAfter, List.foldlM_append]
  exact congrArg _ (funext fun t => bind_pure (t.checkedAct a))

/-- A pass that has not ended had not ended before the last action. -/
theorem ended_dropLast {s : Session α} {g : History α} (he : s.ended g = []) :
    s.ended g.dropLast = [] := by
  obtain ⟨l, hl⟩ := List.dropLast_prefix g
  rw [← hl, ended_append, List.append_eq_nil_iff] at he
  exact he.1

/-- What an action does with overflow checks while a pass is under way that came so far. -/
theorem AtPassStart.checkedAct_after {s : Session α} (hs : s.AtPassStart) {g : History α}
    (he : s.ended g = []) (hg : Progress.Fits s.progress.total (stepCount g)) (a : Action α) :
    (s.after g).checkedAct a =
      if Progress.Fits s.progress.total (stepCount (g ++ [a])) then .ok ((s.after g).act a).session
      else .error .sum := by
  obtain ⟨r, start, -, -, rfl⟩ := hs.exists_opening
  have drawing := (after_drawing (d := r.opening start) rfl g he).drawing
  obtain ⟨-, counted⟩ := hs.completed_after g he
  obtain ⟨now, op⟩ := a
  rw [stepCount_append]
  cases op with
  | step =>
      show ((Session.after _ g).checkedStep now).map _ = _
      rw [checkedStep_pass (drawing?_eq_some.mp drawing).1, counted]
      show _ = if Progress.Fits _ (stepCount g + 1) then _ else _
      simp only [Progress.fits_succ, hg, true_and]
      split <;> rfl
  | _ => exact (if_pos hg).symm

/-- **A pass with overflow checks**, up to its end: the session does the same as without them, or
it stops, and that is so from the first step on that cannot be counted. -/
theorem AtPassStart.checkedAfter {s : Session α} (hs : s.AtPassStart) (g : History α)
    (he : s.ended g.dropLast = []) : s.checkedAfter g =
      if Progress.Fits s.progress.total (stepCount g) then .ok (s.after g) else .error .sum := by
  induction g using List.reverseRecOn with
  | nil => exact (if_pos (.inr (by decide : 0 < UInt32.size))).symm
  | append_singleton g a ih =>
      rw [List.dropLast_concat] at he
      rw [checkedAfter_concat, ih (ended_dropLast he), after_concat]
      by_cases hg : Progress.Fits s.progress.total (stepCount g)
      · rw [if_pos hg]
        exact hs.checkedAct_after he hg a
      · have count : stepCount g ≤ stepCount (g ++ [a]) := by
          rw [stepCount_append]
          exact Nat.le_add_right _ _
        rw [if_neg hg, if_neg fun h => hg (h.mono count)]
        rfl

/-- **Steps are counted up to their total**, as long as each sum fits a word.  The progress of any
number of steps shows that number up to the total, and the total stays.  Only with the largest word
as the total can a sum be too large: a build with overflow checks stops there, and in one without
them the count falls then, and only then, and is not what it should be.  Finished progress shows the
total.  A pass is counted in this way however the session is used meanwhile; with usable options the
count is that of its steps as a word has it.  With overflow checks the session does the same, until
a step of its pass cannot be counted. -/
theorem progress_counts :
    (∀ (total : UInt32) (times : List Float),
      Progress.records total times = (if Progress.Fits total times.length then
        .ok (Progress.recordsUnchecked total times) else .error .sum) ∧
      (Progress.recordsUnchecked total times).completed.toNat =
        Progress.shown total times.length ∧
      (Progress.recordsUnchecked total times).total = total ∧
      [Progress.Fits total times.length,
        ∀ k ≤ times.length, ∃ p, Progress.records total (times.take k) = .ok p ∧
          p.completed.toNat = min k total.toNat,
        ∀ k ≤ times.length,
          (Progress.recordsUnchecked total (times.take k)).completed.toNat = min k total.toNat,
        ∀ k < times.length,
          (Progress.recordsUnchecked total (times.take k)).completed.toNat + 1 < UInt32.size,
        ∀ j k, j ≤ k → k ≤ times.length →
          (Progress.recordsUnchecked total (times.take j)).completed ≤
            (Progress.recordsUnchecked total (times.take k)).completed].TFAE ∧
      ∀ t, (Progress.recordsUnchecked total times).finish t = ⟨total, total, t, true⟩) ∧
    (∀ (s t : Session α) (g : History α), s.checkedAfter g = .ok t → t = s.after g) ∧
    ∀ s : Session α, s.AtPassStart → ∀ g,
      (s.ended g.dropLast = [] → s.checkedAfter g =
        if Progress.Fits s.progress.total (stepCount g) then .ok (s.after g) else .error .sum) ∧
      (s.ended g = [] →
        (s.after g).progress.total = s.progress.total ∧
        (s.after g).progress.completed.toNat = Progress.shown s.progress.total (stepCount g) ∧
        (s.options.validate = .ok s.options →
          (s.after g).progress.completed.toNat = stepCount g % UInt32.size)) := by
  refine ⟨fun total times => ?_, fun s t g => eq_of_checkedAfter, fun s hs g => ⟨?_, ?_⟩⟩
  · have kept := Progress.total_recordsUnchecked total times
    refine ⟨Progress.records_eq total times, Progress.completed_recordsUnchecked total times, kept,
      Progress.counted_tfae total times, fun t => ?_⟩
    rw [Progress.finish, kept]
  · exact hs.checkedAfter g
  · intro he
    obtain ⟨kept, counted⟩ := hs.completed_after g he
    exact ⟨kept, counted, hs.completed_of_usable g he⟩

/-- A point cloud that takes more batches than fit a word: after `2 ^ 32` steps, while it is still
under way, none is shown, and with overflow checks the session stopped. -/
theorem progress_counts_sierpinski :
    let o : Options Float := { Options.standard with pointsPerTick := 1 }
    let s : Session Float :=
      ((new (.of .sierpinski 4294967295 .aurora) ⟨2, 2⟩ o).act ⟨0.0, .requestRender⟩).session
    let g : History Float := steps (fun _ => 1.0) 0 (2 ^ 32)
    s.ended g = [] ∧ s.progress.total = 4294967295 ∧ (s.after g).progress.total = 4294967295 ∧
      (s.after g).progress.completed = 0 ∧ s.checkedAfter g = .error .sum := by
  intro o s g
  have hs : s.AtPassStart := ⟨new _ _ _, ⟨0.0, .requestRender⟩, ⟨_, _, _, [], rfl⟩, rfl, rfl⟩
  have ho : s.options.validate = .ok s.options := by
    rw [options_act]
    exact (rfl : Options.validate { Options.standard (α := Float) with pointsPerTick := 1 } = _)
  have many : s.passSteps = 900 * 4294967295 := by
    show max 30000 (900 * 4294967295) ⌈/⌉ 1 = _
    rw [Nat.ceilDiv_eq_add_pred_div]
    rfl
  have he : s.ended g = [] := by
    rw [(pass_takes hs ho g).1, stepCount_steps, many]
    decide
  have total : s.progress.total = 4294967295 := by
    rw [← UInt32.toNat_inj]
    exact ((pass_takes hs ho []).2 rfl).trans (by rw [many]; rfl)
  obtain ⟨checked, unchecked⟩ := (progress_counts (α := Float)).2.2 s hs g
  obtain ⟨kept, -, counted⟩ := unchecked he
  have full : ¬ Progress.Fits 4294967295 (2 ^ 32) := by
    rw [Progress.Fits]
    decide
  refine ⟨he, total, kept.trans total, ?_, ?_⟩
  · rw [← UInt32.toNat_inj, counted ho, stepCount_steps]
    rfl
  · rw [checked (ended_dropLast he), total, stepCount_steps, if_neg full]

end Session

end FractalRender
