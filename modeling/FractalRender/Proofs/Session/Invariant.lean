import FractalRender.Proofs.Session.Opening
import Mathlib.Data.List.Induction

/-!
# Sessions — the invariant

`Valid last s` says how the parts of a session hang together: the pass under way, the buffer, the
progress, the status, and whether another pass is to follow.  What the status says of an idle
session refers to the last pass that ended, `last`.

* `Valid.act`: every action keeps it.
* `valid_after`: it holds of every session that can be reached.
* `valid_and_provided`: the same, with what follows for the code: the cases that it provides for when
  a band, a value, a pass or a system is missing do not arise.
* `AtPassStart.exists_opening`: a session at the start of a pass came from one that opened it, and
  no other pass was asked for yet.
-/

namespace FractalRender

namespace Session

variable {α : Type} [Scalar α] [Elementary α]

/-- What holds of a session while a pass is under way. -/
structure UnderWay (s : Session α) (d : Drawing α) : Prop where
  sound : Drawing.Sound s.options d
  incomplete : s.progress.isComplete = false
  completed_le : s.progress.completed ≤ s.progress.total
  status : s.status = some (.inFlight d.pass.config.kind d.pass.backend)
  cursor : ∀ k bands i, d.pass.work = .pixels k bands i →
    i = s.progress.completed.toNat ∧ bands.size = s.progress.total.toNat

omit [Scalar α] [Elementary α] in
/-- What holds of an idle session after `last` was the last pass to end, if one ended. -/
def Settled (last : Option (Pass α × Status)) (s : Session α) : Prop :=
  (last = none ∧ s.status = none) ∨
    ∃ p status, last = some (p, status) ∧ s.status = some status ∧
      s.progress.isComplete = true ∧ s.progress.completed = s.progress.total ∧
      (status.completed = false ↔ status.backend = .unavailable)

/-- How the parts of a session hang together after `last` was the last pass to end. -/
structure Valid (last : Option (Pass α × Status)) (s : Session α) : Prop where
  underWay : ∀ d, s.drawing? = some d → UnderWay s d
  settled : s.pass = none → Settled last s
  pending : s.pending = true → s.pass.isSome = true ∧ s.options.overlapPolicy = .coalesce

theorem valid_new (c : Config α) (f : Surface) (o : Options α) : Valid none (new c f o) where
  underWay d hd := by cases hd
  settled _ := .inl ⟨rfl, rfl⟩
  pending h := by cases h

/-- An idle session has no pass to follow. -/
theorem Valid.not_pending {last : Option (Pass α × Status)} {s : Session α} (h : Valid last s)
    (hp : s.pass = none) : s.pending = false := by
  by_contra hq
  simpa [hp] using (h.pending (by simpa using hq)).1

/-! ### What keeps it -/

/-- The invariant reads neither the scene nor the compiled module. -/
theorem Valid.turnTo {last : Option (Pass α × Status)} {s : Session α} (h : Valid last s)
    (c : Scene α) (slot : BackendSlot α) : Valid last (s.turnTo c slot) where
  underWay d hd := by
    obtain ⟨hs, hi, hc, ht, hw⟩ := h.underWay d hd
    exact ⟨hs, hi, hc, ht, hw⟩
  settled hp := h.settled hp
  pending hq := h.pending hq

/-- Another pass may be asked for while one is under way. -/
theorem Valid.defer {last : Option (Pass α × Status)} {s : Session α} (h : Valid last s)
    (hp : s.pass.isSome = true) (ho : s.options.overlapPolicy = .coalesce) :
    Valid last { s with pending := true } where
  underWay d hd := by
    obtain ⟨hs, hi, hc, ht, hw⟩ := h.underWay d hd
    exact ⟨hs, hi, hc, ht, hw⟩
  settled hp := h.settled hp
  pending _ := ⟨hp, ho⟩

/-- A pass may start when none is to follow. -/
theorem valid_startPass {s : Session α} (hf : s.surface.isEmpty = false) (hq : s.pending = false)
    (last : Option (Pass α × Status)) (now : Float) : Valid last (s.startPass now).1 where
  underWay d hd := by
    cases Option.some.inj hd
    -- there are no more bands than rows, so their number fits a word
    have hsteps (k bands i) (hw : (s.opening now).pass.work = .pixels k bands i) :
        i = 0 ∧ bands.size = (Plan.of s.config s.surface s.backend s.options).steps.toNat := by
      obtain ⟨-, rfl, rfl, hsteps⟩ := (Plan.of_shape _ _ _ _).pixels_work hw
      refine ⟨rfl, ?_⟩
      rw [hsteps, UInt32.toNat_ofNat_of_lt']
      rw [size_rowBands]
      exact Nat.lt_of_le_of_lt (bandCount_le (bandHeight_pos _)) s.surface.height.toNat_lt
    exact ⟨sound_opening hf now, rfl, UInt32.le_iff_toNat_le.mpr (Nat.zero_le _), rfl, hsteps⟩
  settled hp := by cases hp
  pending h := by cases hq.symm.trans h

/-- A step that is not the last one. -/
theorem Valid.carryOn {last : Option (Pass α × Status)} {s : Session α} (h : Valid last s)
    {d : Drawing α} (hd : s.drawing? = some d) (hl : d.isLast s.options = false) (now : Float) :
    Valid last (s.carryOn d now) where
  underWay e he := by
    cases Option.some.inj he
    obtain ⟨hs, hi, hc, ht, hw⟩ := h.underWay d hd
    refine ⟨hs.next hl, hi, ?_, ht, ?_⟩
    · show min _ s.progress.total ≤ s.progress.total
      rw [UInt32.le_iff_toNat_le, toNat_min]
      exact Nat.min_le_right _ _
    · intro k bands j hj
      obtain ⟨i, hi, hj⟩ := Drawing.next_pixels hj
      obtain ⟨rfl, hsize⟩ := hw _ _ _ hi
      obtain ⟨rfl, hlast⟩ := hj (hs.bands _ _ _ hi).2
      have hlt := Nat.lt_of_not_le (of_decide_eq_false (hl ▸ hlast).symm)
      refine ⟨?_, hsize⟩
      -- a band is left, so the count neither reaches the total nor wraps around
      show _ = (min (s.progress.completed + 1) s.progress.total).toNat
      rw [toNat_min, UInt32.toNat_add, UInt32.toNat_one, Nat.mod_eq_of_lt]
      all_goals
        have := s.progress.total.toNat_lt
        omega
  settled hp := by cases hp
  pending hq := ⟨rfl, (h.pending hq).2⟩

/-- The end of a pass. -/
theorem Valid.close {last : Option (Pass α × Status)} {s : Session α} (h : Valid last s)
    {d : Drawing α} (hd : s.drawing? = some d) (now : Float) :
    Valid (some (d.pass, d.pass.statusAt now))
      ((s.carryOn d now).close (d.pass.statusAt now)) where
  underWay e he := by cases he
  settled _ := by
    refine .inr ⟨_, _, rfl, rfl, rfl, rfl, ?_⟩
    rw [show (d.pass.statusAt now).backend = d.pass.backend from rfl,
      (h.underWay d hd).sound.backend]
    simp [Pass.statusAt]
  pending hq := by cases hq

/-- **Every action keeps the invariant.** -/
theorem Valid.act {last : Option (Pass α × Status)} {s : Session α} (h : Valid last s)
    (a : Action α) : Valid ((s.entry a).ended?.or last) (s.act a).session := by
  unfold entry
  refine act_cases fun r s' log t => ?_
  cases t with
  | refused e op => exact h
  | noted slot op => exact h.turnTo s.scene slot
  | empty c slot op surface => exact h.turnTo c slot
  | deferred c slot op surface pass policy => exact (h.turnTo c slot).defer pass policy
  | dropped c slot op => exact h.turnTo c slot
  | started c slot op surface pass =>
      exact valid_startPass (s := s.turnTo c slot) surface (h.not_pending pass) _ a.now
  | idle op pass => exact h
  | advanced d op drawing last => exact h.carryOn drawing last a.now
  | ended d op drawing last =>
      rw [Entry.ended?_eq (drawing?_eq_some.mp drawing).1]
      exact h.close drawing a.now
  | restarted d op drawing last pending surface =>
      exact valid_startPass (s := (s.carryOn d a.now).close _) surface rfl _ a.now

/-- **Every session that can be reached satisfies the invariant.** -/
theorem valid_after (c : Config α) (f : Surface) (o : Options α) (h : History α) :
    Valid ((new c f o).ended h).getLast? ((new c f o).after h) := by
  induction h using List.reverseRecOn with
  | nil => exact valid_new c f o
  | append_singleton h a ih =>
      rw [after_concat, getLast?_ended_concat]
      exact ih.act a

/-! ### Cases that do not arise -/

/-- The session has what a step needs, wherever the code has a way out for when it is missing. -/
structure Provided (s : Session α) : Prop where
  /-- The next band is there. -/
  band : ∀ p k bands i, s.pass = some p → p.work = .pixels k bands i → ∃ r, bands[i]? = some r
  /-- The kernel has a value. -/
  value : ∀ p k bands i, s.pass = some p → p.work = .pixels k bands i →
    ∀ z, ∃ v, k.evaluate p.config.params z = some v
  /-- A pass that ends is there, and the status is its own. -/
  pass : ∀ now status, (s.step now).result.outcome = .finished status →
    ∃ p, s.pass = some p ∧ status = p.statusAt now
  /-- A point cloud has a system. -/
  system : s.config.kind.renderMode = .pointCloud →
    ∃ system, PointCloud.Attractor.ofKind? s.config.kind = some system

/-- A step ends a pass only if one is under way. -/
theorem exists_pass_of_finished {s : Session α} {now : Float} {status : Status}
    (h : (s.step now).result.outcome = .finished status) :
    ∃ p, s.pass = some p ∧ status = p.statusAt now := by
  rcases step_outcome s now with ⟨-, hs⟩ | ⟨d, hd, hs | hs⟩
  · rw [hs] at h
    cases h
  · cases hs.symm.trans h
  · cases hs.symm.trans h
    exact ⟨d.pass, (drawing?_eq_some.mp hd).1, rfl⟩

theorem Valid.provided {last : Option (Pass α × Status)} {s : Session α} (h : Valid last s) :
    Provided s where
  band p k bands i hp hw := by
    have hs := (h.underWay ⟨p, s.buffer⟩ (drawing?_eq_some.mpr ⟨hp, rfl⟩)).sound
    exact ⟨_, Array.getElem?_eq_getElem (hs.bands k bands i hw).2⟩
  value p k bands i hp hw :=
    ((h.underWay ⟨p, s.buffer⟩ (drawing?_eq_some.mpr ⟨hp, rfl⟩)).sound.kernel k bands i hw).2
  pass _ _ hf := exists_pass_of_finished hf
  system hm := exists_attractor hm

/-- **The session invariant.**  However a session was made and whatever was done to it since, its
parts hang together, and nothing is missing that a step needs. -/
theorem valid_and_provided (c : Config α) (f : Surface) (o : Options α) (h : History α) :
    Valid ((new c f o).ended h).getLast? ((new c f o).after h) ∧
      Provided ((new c f o).after h) :=
  ⟨valid_after c f o h, (valid_after c f o h).provided⟩

/-! ### Sessions at the start of a pass -/

theorem Reachable.valid {s : Session α} (h : Reachable s) : ∃ last, Valid last s := by
  obtain ⟨c, f, o, g, rfl⟩ := h
  exact ⟨_, valid_after c f o g⟩

/-- **A session at the start of a pass** came from one on a surface with pixels that opened the
pass, and no other pass was asked for yet. -/
theorem AtPassStart.exists_opening {s : Session α} (h : s.AtPassStart) :
    ∃ (r : Session α) (now : Float), r.surface.isEmpty = false ∧ r.pending = false ∧
      s = (r.startPass now).1 := by
  obtain ⟨r, a, hr, hstart, rfl⟩ := h
  obtain ⟨last, hv⟩ := hr.valid
  revert hstart
  unfold entry
  refine act_cases fun ans s' log t => ?_
  intro hstart
  -- an action that leaves as many passes under way as it found, and ends none, started none
  have hnot (hp : s'.isRendering = r.isRendering) (hf : ans.finished? = none) : False :=
    Bool.false_ne_true ((Entry.startsPass_eq_false hp hf).symm.trans hstart)
  cases t with
  | refused e op => exact (hnot rfl rfl).elim
  | noted slot op => exact (hnot rfl rfl).elim
  | empty c slot op surface => exact (hnot rfl rfl).elim
  | deferred c slot op surface pass policy => exact (hnot rfl rfl).elim
  | dropped c slot op surface pass policy => exact (hnot rfl rfl).elim
  | started c slot op surface pass =>
      exact ⟨r.turnTo c slot, a.now, surface, hv.not_pending pass, rfl⟩
  | idle op pass => exact (hnot rfl rfl).elim
  | advanced d op drawing last =>
      exact (hnot (by simp [isRendering, (drawing?_eq_some.mp drawing).1, carryOn]) rfl).elim
  | ended d op drawing last next => cases hstart
  | restarted d op drawing last pending surface =>
      exact ⟨(r.carryOn d a.now).close _, a.now, surface, rfl, rfl⟩

end Session

end FractalRender
