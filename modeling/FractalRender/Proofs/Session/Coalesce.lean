import FractalRender.Proofs.Session.Invariant
import FractalRender.Proofs.Session.Run
import FractalRender.Scalar.Binary64

/-!
# Sessions — no update is lost

With overlapping requests coalesced, what the host sees catches up with the session: a request
that cannot be met at once is met when the pass under way ends.

* `UpToDate.act`: once the session is up to date, or with the first request, every action leaves it
  up to date (`UpToDate`).
* `pending_after`, `step_pending`: the requests deferred during a pass make one pass follow.
* `no_lost_update`: the two together, and what they say of a run.
-/

namespace FractalRender

namespace Session

variable {α : Type}

/-- The pass under way, or else the last one that ended. -/
def latest (last : Option (Pass α × Status)) (s : Session α) : Option (Pass α) :=
  s.pass.or (last.map Prod.fst)

/-- If there is something to draw on, another pass is to follow the one under way, or the latest
pass draws what the session is to show. -/
def UpToDate (last : Option (Pass α × Status)) (s : Session α) : Prop :=
  s.surface.isEmpty = false →
    (s.pass.isSome = true ∧ s.pending = true) ∨ (s.latest last).map Pass.scene = some s.scene

variable [Scalar α] [Elementary α]

/-- **Every action leaves a session up to date** that was so before or that it asks for a render. -/
theorem UpToDate.act {last : Option (Pass α × Status)} {s : Session α}
    (ho : s.options.overlapPolicy = .coalesce) (a : Action α)
    (h : (s.act a).result.asks = true ∨ UpToDate last s) :
    UpToDate ((s.entry a).ended?.or last) (s.act a).session := by
  revert h
  unfold entry
  refine act_cases fun r s' log t => ?_
  intro h
  cases t with
  | refused e op => exact h.resolve_left Bool.false_ne_true
  | noted slot op => exact h.resolve_left Bool.false_ne_true
  | empty c slot op surface =>
      intro hf
      cases surface.symm.trans hf
  | deferred c slot op surface pass policy => exact fun _ => .inl ⟨pass, rfl⟩
  | dropped c slot op surface pass policy => cases ho.symm.trans policy
  | started c slot op surface pass => exact fun _ => .inr rfl
  | idle op pass => exact h.resolve_left Bool.false_ne_true
  | advanced d op drawing last =>
      intro hf
      have hp := (drawing?_eq_some.mp drawing).1
      refine (h.resolve_left Bool.false_ne_true hf).imp (fun hq => ⟨rfl, hq.2⟩) fun hs => ?_
      rw [latest, hp] at hs
      exact hs
  | ended d op drawing last next =>
      intro hf
      have hp := (drawing?_eq_some.mp drawing).1
      have hq : s.pending = false :=
        next.resolve_right (by simp [show s.surface.isEmpty = false from hf])
      -- no other pass was to follow, so the one that ends draws what is to be shown
      refine .inr ?_
      have hs := (h.resolve_left Bool.false_ne_true hf).resolve_left (by simp [hq])
      rw [latest, hp] at hs
      rw [Entry.ended?_eq hp]
      exact hs
  | restarted d op drawing last pending surface => exact fun _ => .inr rfl

/-- **A session that was asked for a render is up to date.** -/
theorem upToDate_after (c : Config α) (f : Surface) {o : Options α}
    (ho : o.overlapPolicy = .coalesce) {h : History α} (ha : (new c f o).asks h = true) :
    UpToDate ((new c f o).ended h).getLast? ((new c f o).after h) := by
  induction h using List.reverseRecOn with
  | nil => cases ha
  | append_singleton h a ih =>
      rw [asks_concat, Bool.or_eq_true] at ha
      rw [after_concat, getLast?_ended_concat]
      exact UpToDate.act (by rw [options_after]; exact ho) a (ha.symm.imp_right ih)

/-! ### One pass for all deferred requests -/

/-- What one action does to the pass that is to follow, while the pass under way does not end. -/
theorem pending_act {s : Session α} (hp : s.pass.isSome = true) {a : Action α}
    (hf : (s.act a).result.finished? = none) :
    (s.act a).session.pass.isSome = true ∧
      (s.act a).session.pending = (s.pending || (s.act a).result.isDeferred) := by
  revert hf
  refine act_cases fun r s' log t => ?_
  intro hf
  cases t with
  | refused e op => exact ⟨hp, (Bool.or_false _).symm⟩
  | noted slot op => exact ⟨hp, (Bool.or_false _).symm⟩
  | empty c slot op surface => exact ⟨hp, (Bool.or_false _).symm⟩
  | deferred c slot op surface pass policy => exact ⟨hp, (Bool.or_true _).symm⟩
  | dropped c slot op surface pass policy => exact ⟨hp, (Bool.or_false _).symm⟩
  | started c slot op surface pass => simp [pass] at hp
  | idle op pass => simp [pass] at hp
  | advanced d op drawing last => exact ⟨rfl, (Bool.or_false _).symm⟩
  | ended d op drawing last next => cases hf
  | restarted d op drawing last pending surface => cases hf

/-- **Another pass is to follow** the one under way when a request was deferred since it started. -/
theorem pending_after {s : Session α} (hp : s.pass.isSome = true) (g : History α)
    (he : s.ended g = []) : (s.after g).pending = (s.pending || decide (s.deferrals g ≠ 0)) := by
  induction g generalizing s with
  | nil => simp [after, deferrals, entries]
  | cons a g ih =>
      obtain ⟨p, hpass⟩ := Option.isSome_iff_exists.mp hp
      obtain ⟨hf, hrest⟩ := (ended_cons_eq_nil hpass).mp he
      obtain ⟨hp', hq⟩ := pending_act hp hf
      rw [after_cons, ih hp' hrest, hq, deferrals_cons]
      cases (s.act a).result.isDeferred <;> simp

/-- **What a step does to the pass that is to follow.**  One starts when the step ends a pass,
another one is to follow, and there is something to draw on; none is to follow afterwards. -/
theorem step_pending (s : Session α) (now : Float) :
    (s.entry ⟨now, .step⟩).startsPass =
        ((s.act ⟨now, .step⟩).result.finished?.isSome && s.pending && !s.surface.isEmpty) ∧
      (s.act ⟨now, .step⟩).session.pending =
        (s.pending && !(s.act ⟨now, .step⟩).result.finished?.isSome) := by
  unfold entry
  refine act_cases fun r s' log t => ?_
  cases t with
  | refused e op => cases op
  | noted slot op => cases op
  | empty c slot op surface => cases op
  | deferred c slot op surface pass policy => cases op
  | dropped c slot op surface pass policy => cases op
  | started c slot op surface pass => cases op
  | idle op pass => exact ⟨Entry.startsPass_eq_false rfl rfl, (Bool.and_true _).symm⟩
  | advanced d op drawing last =>
      refine ⟨Entry.startsPass_eq_false ?_ rfl, (Bool.and_true _).symm⟩
      simp [isRendering, (drawing?_eq_some.mp drawing).1, carryOn]
  | ended d op drawing last next =>
      refine ⟨?_, (Bool.and_false _).symm⟩
      rcases next with hq | he
      · rw [hq]
        rfl
      · rw [he, Bool.not_true, Bool.and_false]
        rfl
  | restarted d op drawing last pending surface =>
      refine ⟨?_, (Bool.and_false _).symm⟩
      rw [pending, surface]
      exact Bool.or_true _

/-- Steps start no pass when none is to follow. -/
theorem starts_steps {s : Session α} (hq : s.pending = false) {q : History α}
    (hsteps : ∀ a ∈ q, a.operation = .step) : s.starts q = 0 := by
  induction q generalizing s with
  | nil => rfl
  | cons a q ih =>
      obtain ⟨now, op⟩ := a
      obtain rfl : op = .step := hsteps _ List.mem_cons_self
      obtain ⟨hs, hq'⟩ := step_pending s now
      rw [hq, Bool.and_false, Bool.false_and] at hs
      rw [hq, Bool.false_and] at hq'
      rw [starts_cons, hs, ih hq' fun b hb => hsteps b (List.mem_cons_of_mem _ hb)]
      rfl

theorem finished?_of_outcome {s : Session α} {now : Float} {status : Status}
    (hf : (s.step now).result.outcome = .finished status) :
    (s.act ⟨now, .step⟩).result.finished? = some status := by
  show Answer.finished? (.stepped (s.step now).result) = _
  generalize (s.step now).result = r at hf
  obtain ⟨outcome, commits⟩ := r
  cases hf
  rfl

/-- **One pass follows** a pass during which requests were deferred, if there is something to draw
on when it ends, and else none. -/
theorem starts_after_deferrals {s : Session α} (hs : s.AtPassStart) {g q : History α}
    (he : s.ended g = []) {now : Float} {status : Status}
    (hf : ((s.after g).step now).result.outcome = .finished status)
    (hq : ∀ a ∈ q, a.operation = .step) :
    (s.after g).starts (⟨now, .step⟩ :: q) =
      if s.deferrals g ≠ 0 ∧ (s.after g).surface.isEmpty = false then 1 else 0 := by
  obtain ⟨r, _, -, hr, rfl⟩ := hs.exists_opening
  have hp := pending_after (s := (r.startPass _).1) rfl g he
  obtain ⟨hstart, hnone⟩ := step_pending ((r.startPass _).1.after g) now
  rw [finished?_of_outcome hf, Option.isSome_some] at hstart hnone
  rw [Bool.not_true, Bool.and_false] at hnone
  rw [starts_cons, starts_steps hnone hq, Nat.zero_add, hstart, hp,
    show (r.startPass _).1.pending = false from hr]
  split <;> simp_all

/-! ### No update is lost -/

/-- **What a run has drawn.**  When a run of a session that was asked for a render comes to its end,
the last pass that ended drew what the session is to show, if there is something to draw on. -/
theorem scene_of_runFor (c : Config α) (f : Surface) {o : Options α}
    (ho : o.overlapPolicy = .coalesce) {h : History α} (ha : (new c f o).asks h = true)
    {clock : Nat → Float} {n i : Nat} {r : Reply α RunResult}
    (hr : runFor clock n i ((new c f o).after h) = some r)
    (hf : r.session.surface.isEmpty = false) :
    ∃ k p status, r.session = (new c f o).after (h ++ steps clock i k) ∧
      ((new c f o).ended (h ++ steps clock i k)).getLast? = some (p, status) ∧
      r.session.status = some status ∧ p.scene = r.session.scene := by
  obtain ⟨k, hk, hnone⟩ := runFor_after hr
  rw [← after_append] at hk
  have hup := upToDate_after c f ho (h := h ++ steps clock i k) (by rw [asks_append, ha]; rfl)
  rw [← hk] at hup
  have hs := (hup hf).resolve_left (by simp [hnone])
  rw [latest, hnone, Option.none_or, Option.map_map, Option.map_eq_some_iff] at hs
  obtain ⟨⟨p, status⟩, hlast, hscene⟩ := hs
  refine ⟨k, p, status, hk, hlast, ?_, hscene⟩
  -- an idle session keeps the status of the last pass that ended
  have hsettled := (valid_after c f o (h ++ steps clock i k)).settled
  rw [← hk, hlast] at hsettled
  rcases hsettled hnone with ⟨hnot, -⟩ | ⟨q, st, heq, hst, -⟩
  · cases hnot
  · cases heq
    exact hst

/-- **No update is lost** when overlapping requests are coalesced.  A session that was asked for a
render is up to date.  The requests deferred during a pass make exactly one pass follow, or none if
there is nothing to draw on when it ends.  When a run comes to its end on a surface with pixels, the
last pass that ended drew what the session is to show: this holds for every bound on the steps of
the run, so for `runToCompletion` too. -/
theorem no_lost_update (c : Config α) (f : Surface) {o : Options α}
    (ho : o.overlapPolicy = .coalesce) :
    (∀ h, (new c f o).asks h = true →
      UpToDate ((new c f o).ended h).getLast? ((new c f o).after h)) ∧
    (∀ h, ((new c f o).after h).AtPassStart → ∀ g, ((new c f o).after h).ended g = [] →
      ∀ now status, (((new c f o).after (h ++ g)).step now).result.outcome = .finished status →
      ∀ q : History α, (∀ a ∈ q, a.operation = .step) →
        ((new c f o).after (h ++ g)).starts (⟨now, .step⟩ :: q) =
          if ((new c f o).after h).deferrals g ≠ 0 ∧
            ((new c f o).after (h ++ g)).surface.isEmpty = false then 1 else 0) ∧
    (∀ h, (new c f o).asks h = true → ∀ clock n r,
      runFor clock n 0 ((new c f o).after h) = some r → r.session.surface.isEmpty = false →
      ∃ k p status, r.session = (new c f o).after (h ++ steps clock 0 k) ∧
        ((new c f o).ended (h ++ steps clock 0 k)).getLast? = some (p, status) ∧
        r.session.status = some status ∧ p.scene = r.session.scene) := by
  refine ⟨?_, ?_, ?_⟩
  · intro h ha
    exact upToDate_after c f ho ha
  · intro h hs g he now status hf q hq
    rw [after_append] at hf ⊢
    exact starts_after_deferrals hs he hf hq
  · intro h ha clock n r hr hne
    exact scene_of_runFor c f ho ha hr hne

/-- A curve that is dragged and resized while it is drawn: one more pass follows, and a run ends with
the curve as it is to be shown. -/
theorem no_lost_update_dragged :
    let s : Session Float := new (.of .koch 3 .aurora) ⟨2, 2⟩ .standard
    let h : History Float := [⟨0.0, .requestRender⟩]
    let g : History Float := [⟨1.0, .pan ⟨1.0, 0.0⟩⟩, ⟨2.0, .resize ⟨3, 1⟩⟩]
    UpToDate (s.ended (h ++ g)).getLast? (s.after (h ++ g)) ∧
      (s.after (h ++ g)).starts [⟨3.0, .step⟩, ⟨4.0, .step⟩, ⟨5.0, .step⟩] = 1 ∧
      ∃ r, runFor (fun _ => 6.0) 3 0 (s.after (h ++ g)) = some r ∧
        ∃ k p status, r.session = s.after (h ++ g ++ steps (fun _ => 6.0) 0 k) ∧
          (s.ended (h ++ g ++ steps (fun _ => 6.0) 0 k)).getLast? = some (p, status) ∧
          r.session.status = some status ∧ p.scene = r.session.scene := by
  intro s h g
  obtain ⟨hup, hstarts, hrun⟩ :=
    no_lost_update (.of .koch 3 .aurora : Config Float) ⟨2, 2⟩ (o := .standard) rfl
  have hs : (s.after h).AtPassStart := ⟨s, ⟨0.0, .requestRender⟩, ⟨_, _, _, [], rfl⟩, rfl, rfl⟩
  refine ⟨hup (h ++ g) rfl, ?_, _, rfl, hrun (h ++ g) rfl _ 3 _ rfl rfl⟩
  have hq : ∀ a ∈ ([⟨4.0, .step⟩, ⟨5.0, .step⟩] : History Float), a.operation = .step := by
    simp
  exact (hstarts h hs g rfl 3.0 ⟨.koch, .interpreted, 3.0 - 0.0, true⟩ rfl _ hq).trans
    (if_pos ⟨by decide, rfl⟩)

end Session

end FractalRender
