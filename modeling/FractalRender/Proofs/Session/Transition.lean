import FractalRender.Proofs.Session.Drawing
import FractalRender.Session.History
import Mathlib.Data.List.Induction

/-!
# Sessions — what one action does

Every operation but a step turns the session to a scene (`turnTo`) and then asks for a pass over
it.  A step carries the drawing under way on (`carryOn`), and the last one closes it (`close`) and
may start the pass that was asked for meanwhile.  `Transition s a r t` lists what can become of
the session `s`: the action `a` is answered with `r` and leaves the session `t`.

* `transition`: every action does one of these.
* `act_drawing`: an action that is no step leaves the drawing under way alone and gives no rows to
  the host; a step does the drawing's next step and gives exactly its rows.
* `after_drawing`: as long as the pass under way has not ended, the drawing and the rows given to
  the host depend only on how many steps were done.
* `ended_eq_nil_iff_isLast`: that is so as long as none of them was the drawing's last one.
-/

namespace FractalRender

variable {α : Type}

/-- What is to be seen: a configuration, a view of it, and the surface for it. -/
structure Scene (α : Type) where
  config : Config α
  viewport : Viewport α
  surface : Surface

/-- What a pass draws. -/
def Pass.scene (p : Pass α) : Scene α := ⟨p.config, p.viewport, p.surface⟩

namespace Session

/-- What a session is to show. -/
def scene (s : Session α) : Scene α := ⟨s.config, s.viewport, s.surface⟩

/-- The session with another scene and another compiled module. -/
def turnTo (s : Session α) (c : Scene α) (slot : BackendSlot α) : Session α :=
  { s with
    config := c.config
    viewport := c.viewport
    surface := c.surface
    backend := slot }

/-- The session with the pass under way ended, and none to follow it. -/
def close (s : Session α) (status : Status) : Session α :=
  { s with
    pass := none
    pending := false
    progress := s.progress.finish status.elapsedMs
    status := some status }

/-- The pass under way with its buffer. -/
def drawing? (s : Session α) : Option (Drawing α) := s.pass.map (⟨·, s.buffer⟩)

theorem drawing?_eq_some {s : Session α} {d : Drawing α} :
    s.drawing? = some d ↔ s.pass = some d.pass ∧ s.buffer = d.buffer := by
  obtain ⟨p, b⟩ := d
  cases hp : s.pass <;> simp [drawing?, hp]

theorem drawing?_eq_none {s : Session α} : s.drawing? = none ↔ s.pass = none :=
  Option.map_eq_none_iff

variable [Scalar α] [Elementary α]

/-- The session with the next step of a drawing done. -/
def carryOn (s : Session α) (d : Drawing α) (now : Float) : Session α :=
  { s with
    buffer := (d.next s.options).buffer
    pass := some (d.next s.options).pass
    progress := s.progress.recordStepUnchecked (now - d.pass.startedMs) }

/-- What an action can do to a session. -/
inductive Transition (s : Session α) (a : Action α) : Answer α → Session α → Prop where
  /-- The arguments cannot be used. -/
  | refused (e : ViewportError α) (op : a.operation.isStep = false) : Transition s a (.refused e) s
  /-- No compiled module could be loaded. -/
  | noted (slot : BackendSlot α) (op : a.operation.isStep = false) :
      Transition s a .done { s with backend := slot }
  /-- There is nothing to draw on. -/
  | empty (c : Scene α) (slot : BackendSlot α) (op : a.operation.isStep = false)
      (surface : c.surface.isEmpty = true) :
      Transition s a (.outcome .invalidSurface) (s.turnTo c slot)
  | deferred (c : Scene α) (slot : BackendSlot α) (op : a.operation.isStep = false)
      (surface : c.surface.isEmpty = false) (pass : s.pass.isSome = true)
      (policy : s.options.overlapPolicy = .coalesce) :
      Transition s a (.outcome .deferred) { s.turnTo c slot with pending := true }
  | dropped (c : Scene α) (slot : BackendSlot α) (op : a.operation.isStep = false)
      (surface : c.surface.isEmpty = false) (pass : s.pass.isSome = true)
      (policy : s.options.overlapPolicy = .drop) :
      Transition s a (.outcome .dropped) (s.turnTo c slot)
  | started (c : Scene α) (slot : BackendSlot α) (op : a.operation.isStep = false)
      (surface : c.surface.isEmpty = false) (pass : s.pass = none) :
      Transition s a (.outcome .started) ((s.turnTo c slot).startPass a.now).1
  | idle (op : a.operation = .step) (pass : s.pass = none) :
      Transition s a (.stepped ⟨.idle, []⟩) s
  | advanced (d : Drawing α) (op : a.operation = .step) (drawing : s.drawing? = some d)
      (last : d.isLast s.options = false) :
      Transition s a (.stepped ⟨.more, d.commits s.options⟩) (s.carryOn d a.now)
  /-- The pass ends and none follows. -/
  | ended (d : Drawing α) (op : a.operation = .step) (drawing : s.drawing? = some d)
      (last : d.isLast s.options = true) (next : s.pending = false ∨ s.surface.isEmpty = true) :
      Transition s a (.stepped ⟨.finished (d.pass.statusAt a.now), d.commits s.options⟩)
        ((s.carryOn d a.now).close (d.pass.statusAt a.now))
  /-- The pass ends and the one that was asked for meanwhile starts. -/
  | restarted (d : Drawing α) (op : a.operation = .step) (drawing : s.drawing? = some d)
      (last : d.isLast s.options = true) (pending : s.pending = true)
      (surface : s.surface.isEmpty = false) :
      Transition s a (.stepped ⟨.finished (d.pass.statusAt a.now), d.commits s.options⟩)
        (((s.carryOn d a.now).close (d.pass.statusAt a.now)).startPass a.now).1

/-! ### Every action does one of these -/

/-- What becomes of a request for a pass over a scene. -/
theorem request_transition (s : Session α) {a : Action α} (c : Scene α) (slot : BackendSlot α)
    (op : a.operation.isStep = false) :
    Transition s a (.outcome ((s.turnTo c slot).requestRender a.now).result)
      ((s.turnTo c slot).requestRender a.now).session := by
  cases he : c.surface.isEmpty with
  | true =>
      rw [requestRender_empty (s := s.turnTo c slot) he]
      exact .empty c slot op he
  | false =>
      cases hp : s.pass with
      | none =>
          rw [requestRender_started (s := s.turnTo c slot) he hp]
          exact .started c slot op he hp
      | some p =>
          have hp : s.pass.isSome = true := by simp [hp]
          cases ho : s.options.overlapPolicy with
          | coalesce =>
              rw [requestRender_deferred (s := s.turnTo c slot) he hp ho]
              exact .deferred c slot op he hp ho
          | drop =>
              rw [requestRender_dropped (s := s.turnTo c slot) he hp ho]
              exact .dropped c slot op he hp ho

theorem finishPass_result {s : Session α} {p : Pass α} (hp : s.pass = some p) (now : Float) :
    (s.finishPass now).result = p.statusAt now := by
  have hs : s.endStatus now = p.statusAt now := by rw [endStatus, hp]
  cases hn : s.pending with
  | false => simp [finishPass, hs, hn]
  | true => simp [finishPass, hs, hn]

/-- A pass that nothing is to follow, or that nothing can follow, is closed. -/
theorem finishPass_ended {s : Session α} {p : Pass α} (hp : s.pass = some p)
    (hq : s.pending = false ∨ s.surface.isEmpty = true) (now : Float) :
    (s.finishPass now).session = s.close (p.statusAt now) := by
  have hs : s.endStatus now = p.statusAt now := by rw [endStatus, hp]
  cases hn : s.pending with
  | false => simp [finishPass, hs, hn, close]
  | true =>
      have he : (s.close (p.statusAt now)).surface.isEmpty = true := hq.resolve_left (by simp [hn])
      simp only [finishPass, hs, hn, if_true]
      show ((s.close (p.statusAt now)).requestRender now).session = _
      rw [requestRender_empty he]

/-- A pass that another one is to follow is closed, and the other one starts. -/
theorem finishPass_restarted {s : Session α} {p : Pass α} (hp : s.pass = some p)
    (hn : s.pending = true) (he : s.surface.isEmpty = false) (now : Float) :
    (s.finishPass now).session = ((s.close (p.statusAt now)).startPass now).1 := by
  have hs : s.endStatus now = p.statusAt now := by rw [endStatus, hp]
  simp only [finishPass, hs, hn, if_true]
  show ((s.close (p.statusAt now)).requestRender now).session = _
  rw [requestRender_started (s := s.close (p.statusAt now)) he rfl]

theorem step_idle {s : Session α} (hp : s.pass = none) (now : Float) :
    s.step now = ⟨s, ⟨.idle, []⟩, []⟩ := by
  simp only [step, hp]

/-- A step that is not the last one does the drawing's next step. -/
theorem step_advanced {s : Session α} {d : Drawing α} (hd : s.drawing? = some d)
    (hl : d.isLast s.options = false) (now : Float) :
    s.step now = ⟨s.carryOn d now, ⟨.more, d.commits s.options⟩, []⟩ := by
  obtain ⟨p, b⟩ := d
  obtain ⟨hp, rfl⟩ := drawing?_eq_some.mp hd
  have hl : (p.advance s.options s.buffer).done = false := hl
  simp only [step, hp, hl]
  rfl

/-- The last step does the drawing's next step and ends the pass. -/
theorem step_last {s : Session α} {d : Drawing α} (hd : s.drawing? = some d)
    (hl : d.isLast s.options = true) (now : Float) :
    (s.step now).result = ⟨.finished (d.pass.statusAt now), d.commits s.options⟩ ∧
      (s.step now).session = ((s.carryOn d now).finishPass now).session := by
  obtain ⟨p, b⟩ := d
  obtain ⟨hp, rfl⟩ := drawing?_eq_some.mp hd
  have hl : (p.advance s.options s.buffer).done = true := hl
  have hr : ((s.carryOn ⟨p, s.buffer⟩ now).finishPass now).result = p.statusAt now :=
    (finishPass_result rfl now).trans (Drawing.statusAt_next _ _ now)
  simp only [step, hp, hl, if_true]
  exact ⟨congrArg (fun st => StepResult.mk (.finished st) _) hr, rfl⟩

omit [Scalar α] [Elementary α] in
/-- A pass is followed by none, or by one over what the session is to show. -/
theorem idle_or_restarted (s : Session α) :
    (s.pending = false ∨ s.surface.isEmpty = true) ∨
      (s.pending = true ∧ s.surface.isEmpty = false) := by
  cases s.pending <;> cases s.surface.isEmpty <;> simp

/-- The last step of a pass that none follows closes it. -/
theorem step_ended {s : Session α} {d : Drawing α} (hd : s.drawing? = some d)
    (hl : d.isLast s.options = true) (next : s.pending = false ∨ s.surface.isEmpty = true)
    (now : Float) : (s.step now).session = (s.carryOn d now).close (d.pass.statusAt now) := by
  rw [(step_last hd hl now).2, finishPass_ended (s := s.carryOn d now) rfl next,
    Drawing.statusAt_next]

/-- The last step of a pass that another one follows closes it and starts the other one. -/
theorem step_restarted {s : Session α} {d : Drawing α} (hd : s.drawing? = some d)
    (hl : d.isLast s.options = true) (pending : s.pending = true)
    (surface : s.surface.isEmpty = false) (now : Float) :
    (s.step now).session =
      (((s.carryOn d now).close (d.pass.statusAt now)).startPass now).1 := by
  rw [(step_last hd hl now).2, finishPass_restarted (s := s.carryOn d now) rfl pending surface,
    Drawing.statusAt_next]

/-- What a step answers: an idle session has nothing to do and stays as it is, and a pass ends only
if it is under way. -/
theorem step_outcome (s : Session α) (now : Float) :
    (s.pass = none ∧ s.step now = ⟨s, ⟨.idle, []⟩, []⟩) ∨
      ∃ d, s.drawing? = some d ∧ ((s.step now).result.outcome = .more ∨
        (s.step now).result.outcome = .finished (d.pass.statusAt now)) := by
  cases hd : s.drawing? with
  | none =>
      have hp := drawing?_eq_none.mp hd
      exact .inl ⟨hp, step_idle hp now⟩
  | some d =>
      refine .inr ⟨d, rfl, ?_⟩
      cases hl : d.isLast s.options with
      | false => exact .inl (by rw [step_advanced hd hl])
      | true => exact .inr (by rw [(step_last hd hl now).1])

/-- What becomes of a step. -/
theorem step_transition (s : Session α) (now : Float) :
    Transition s ⟨now, .step⟩ (.stepped (s.step now).result) (s.step now).session := by
  cases hd : s.drawing? with
  | none =>
      have hp := drawing?_eq_none.mp hd
      rw [step_idle hp]
      exact .idle rfl hp
  | some d =>
      cases hl : d.isLast s.options with
      | false =>
          rw [step_advanced hd hl]
          exact .advanced d rfl hd hl
      | true =>
          rw [(step_last hd hl now).1]
          rcases idle_or_restarted s with next | ⟨pending, surface⟩
          · rw [step_ended hd hl next]
            exact .ended d rfl hd hl next
          · rw [step_restarted hd hl pending surface]
            exact .restarted d rfl hd hl pending surface

/-- **Every action does one of these.** -/
theorem transition (s : Session α) (a : Action α) :
    Transition s a (s.act a).result (s.act a).session := by
  obtain ⟨now, op⟩ := a
  cases op with
  | requestRender => exact request_transition s s.scene s.backend rfl
  | step => exact step_transition s now
  | setConfig c =>
      simp only [act, perform, answer, setConfig]
      split
      · exact request_transition s ⟨c, .ofPreset c.preset s.surface.width, s.surface⟩ s.backend rfl
      · exact request_transition s ⟨c, s.viewport, s.surface⟩ s.backend rfl
  | setViewport v =>
      simp only [act, perform, answer, setViewport]
      split
      · next v' _ => exact request_transition s ⟨s.config, v', s.surface⟩ s.backend rfl
      · exact .refused _ rfl
  | resetView =>
      exact request_transition s ⟨s.config, .ofPreset s.config.preset s.surface.width, s.surface⟩
        s.backend rfl
  | zoomAt p factor =>
      simp only [act, perform, answer, zoomAt]
      split
      · next v _ => exact request_transition s ⟨s.config, v, s.surface⟩ s.backend rfl
      · exact .refused _ rfl
  | pan drag =>
      exact request_transition s ⟨s.config, s.viewport.pan drag, s.surface⟩ s.backend rfl
  | resize surface =>
      exact request_transition s
        ⟨s.config, s.viewport.rescaleForWidth s.surface.width surface.width, surface⟩ s.backend rfl
  | attachBackend m => exact request_transition s s.scene (.loaded m) rfl
  | backendFailed reason => exact .noted (.failed reason) rfl

/-- What holds of every transition holds of the reply to an action. -/
@[elab_as_elim] theorem act_cases {s : Session α} {a : Action α} {P : Reply α (Answer α) → Prop}
    (h : ∀ r t log, Transition s a r t → P ⟨t, r, log⟩) : P (s.act a) :=
  h _ _ _ (transition s a)

/-- **The options of a session never change.** -/
@[simp] theorem options_act (s : Session α) (a : Action α) :
    (s.act a).session.options = s.options := by
  refine act_cases fun r s' log t => ?_
  cases t <;> rfl

@[simp] theorem options_after (s : Session α) (h : History α) :
    (s.after h).options = s.options := by
  induction h generalizing s with
  | nil => rfl
  | cons a h ih => exact (ih _).trans (options_act s a)

/-! ### What is to be seen

Requests and steps leave it as it is. -/

theorem scene_requestRender (s : Session α) (now : Float) :
    (s.requestRender now).session.scene = s.scene := by
  unfold requestRender
  split
  · rfl
  · split
    · split <;> rfl
    · rfl

theorem scene_step (s : Session α) (now : Float) : (s.step now).session.scene = s.scene := by
  have done : Transition s ⟨now, .step⟩ (.stepped (s.step now).result) (s.step now).session :=
    step_transition s now
  generalize (s.step now).result = r, (s.step now).session = t at done ⊢
  cases done with
  | idle | advanced | ended | restarted => rfl

/-! ### The drawing under way -/

/-- What an action does to the drawing under way. -/
inductive Drawn (s : Session α) (d : Drawing α) (a : Action α) : Answer α → Session α → Prop where
  /-- Not a step: the drawing stays as it is and the host is given nothing. -/
  | kept {r : Answer α} {t : Session α} (op : a.operation.isStep = false)
      (drawing : t.drawing? = some d) (commits : r.commits = []) (finished : r.finished? = none) :
      Drawn s d a r t
  | carried {r : Answer α} {t : Session α} (op : a.operation = .step)
      (last : d.isLast s.options = false) (drawing : t.drawing? = some (d.next s.options))
      (commits : r.commits = d.commits s.options) (finished : r.finished? = none) : Drawn s d a r t
  | finished {r : Answer α} {t : Session α} (op : a.operation = .step)
      (last : d.isLast s.options = true) (commits : r.commits = d.commits s.options)
      (finished : r.finished? = some (d.pass.statusAt a.now)) : Drawn s d a r t

/-- **One action and the drawing under way.**  Only a step touches it, and the host is given the
rows of the drawing's next step and no others. -/
theorem act_drawing {s : Session α} {d : Drawing α} (hd : s.drawing? = some d) (a : Action α) :
    Drawn s d a (s.act a).result (s.act a).session := by
  have hp : s.pass ≠ none := fun hp => by simp [drawing?, hp] at hd
  refine act_cases fun r s' log t => ?_
  cases t with
  | refused e op => exact .kept op hd rfl rfl
  | noted slot op => exact .kept op hd rfl rfl
  | empty c slot op => exact .kept op hd rfl rfl
  | deferred c slot op => exact .kept op hd rfl rfl
  | dropped c slot op => exact .kept op hd rfl rfl
  | started c slot op surface pass => exact absurd pass hp
  | idle op pass => exact absurd pass hp
  | advanced e op drawing last =>
      cases Option.some.inj (hd.symm.trans drawing)
      exact .carried op last rfl rfl rfl
  | ended e op drawing last =>
      cases Option.some.inj (hd.symm.trans drawing)
      exact .finished op last rfl rfl
  | restarted e op drawing last =>
      cases Option.some.inj (hd.symm.trans drawing)
      exact .finished op last rfl rfl

/-- How many of the actions are steps. -/
def stepCount (h : History α) : Nat := h.countP (·.operation.isStep)

omit [Scalar α] [Elementary α] in
theorem stepCount_append (g h : History α) : stepCount (g ++ h) = stepCount g + stepCount h :=
  List.countP_append

/-- What a history that does not end the pass under way does to its drawing. -/
structure Progressed (s : Session α) (d : Drawing α) (h : History α) : Prop where
  drawing : (s.after h).drawing? = some ((Drawing.next s.options)^[stepCount h] d)
  commits : s.commits h = Drawing.film s.options (stepCount h) d
  last : ∀ i < stepCount h, ((Drawing.next s.options)^[i] d).isLast s.options = false

/-- **While a pass is under way** its drawing and the rows given to the host depend only on how
many steps were done. -/
theorem after_drawing {s : Session α} {d : Drawing α} (hd : s.drawing? = some d) (h : History α)
    (he : s.ended h = []) : Progressed s d h := by
  -- the first action is no step and changes nothing, or it is the drawing's next step
  induction h generalizing s d with
  | nil => exact ⟨hd, rfl, fun i hi => absurd hi (Nat.not_lt_zero i)⟩
  | cons a h ih =>
      obtain ⟨hfirst, hrest⟩ := (ended_cons_eq_nil (drawing?_eq_some.mp hd).1).mp he
      cases act_drawing hd a with
      | kept op drawing commits =>
          obtain ⟨hdr, hc, hl⟩ := ih drawing hrest
          have hn : stepCount (a :: h) = stepCount h := by simp [stepCount, op]
          rw [options_act] at hdr hc hl
          exact ⟨by rw [after_cons, hn, hdr], by rw [commits_cons, commits, hn, hc]; rfl, hn ▸ hl⟩
      | carried op last drawing commits =>
          obtain ⟨hdr, hc, hl⟩ := ih drawing hrest
          have hn : stepCount (a :: h) = stepCount h + 1 := by
            simp [stepCount, op, Operation.isStep]
          rw [options_act] at hdr hc hl
          refine ⟨by rw [after_cons, hn, hdr, Function.iterate_succ_apply],
            by rw [commits_cons, commits, hn, hc, Drawing.film], ?_⟩
          intro i hi
          cases i with
          | zero => exact last
          | succ i => exact hl i (by omega)
      | finished op last commits finished => cases hfirst.symm.trans finished

/-- **The pass under way has not ended** as long as none of the steps done was the drawing's last
one, whatever else was done meanwhile. -/
theorem ended_eq_nil_iff_isLast {s : Session α} {d : Drawing α} (hd : s.drawing? = some d)
    (g : History α) : s.ended g = [] ↔
      ∀ i < stepCount g, ((Drawing.next s.options)^[i] d).isLast s.options = false := by
  refine ⟨fun he => (after_drawing hd g he).last, ?_⟩
  intro more
  -- the pass has not ended before the last action, and that is not the drawing's last step
  induction g using List.reverseRecOn with
  | nil => rfl
  | append_singleton g a ih =>
      have hcount := stepCount_append g [a]
      have he := ih fun i hi => more i (by omega)
      obtain ⟨hdraw, -, -⟩ := after_drawing hd g he
      rw [ended_append, he, List.nil_append, ended_cons_eq_nil (drawing?_eq_some.mp hdraw).1]
      refine ⟨?_, rfl⟩
      cases act_drawing hdraw a with
      | kept op drawing commits finished => exact finished
      | carried op last drawing commits finished => exact finished
      | finished op last commits finished =>
          have hone : stepCount [a] = 1 := by simp [stepCount, op, Operation.isStep]
          rw [options_after, more _ (by omega)] at last
          cases last

/-- **A pass of `n` steps** is under way until so many steps were done, whatever else was done
meanwhile. -/
theorem ended_eq_nil_iff_stepCount_lt {s : Session α} {d : Drawing α} (hd : s.drawing? = some d)
    {n : Nat} (hn : 0 < n)
    (hlast : ∀ i < n, ((Drawing.next s.options)^[i] d).isLast s.options = decide (n ≤ i + 1))
    (g : History α) : s.ended g = [] ↔ stepCount g < n := by
  rw [ended_eq_nil_iff_isLast hd]
  constructor
  · intro more
    by_contra hge
    have := more (n - 1) (by omega)
    rw [hlast _ (by omega)] at this
    have := of_decide_eq_false this
    omega
  · intro hlt i hi
    rw [hlast i (by omega)]
    exact decide_eq_false (by omega)

/-- The step that is the drawing's last one ends the pass under way. -/
theorem endsPass_of_isLast {s : Session α} {d : Drawing α} (hd : s.drawing? = some d)
    {g : History α} (he : s.ended g = [])
    (hl : ((Drawing.next s.options)^[stepCount g] d).isLast s.options = true) (now : Float) :
    s.EndsPass (g ++ [⟨now, .step⟩]) (d.pass.statusAt now) := by
  refine ⟨g, now, rfl, he, ?_⟩
  rw [(step_last (after_drawing hd g he).drawing (by rwa [options_after]) now).1,
    Drawing.statusAt_iterate_next]

/-- The history that ends the pass under way goes up to the last step of its drawing, and does that
one. -/
theorem EndsPass.exists_last {s : Session α} {d : Drawing α} (hd : s.drawing? = some d)
    {h : History α} {status : Status} (he : s.EndsPass h status) :
    ∃ g now, h = g ++ [⟨now, .step⟩] ∧ Progressed s d g ∧
      ((Drawing.next s.options)^[stepCount g] d).isLast s.options = true ∧
      status = d.pass.statusAt now := by
  obtain ⟨g, now, rfl, hg, hf⟩ := he
  have hp := after_drawing hd g hg
  refine ⟨g, now, rfl, hp, ?_⟩
  cases hlast : ((Drawing.next s.options)^[stepCount g] d).isLast s.options with
  | false =>
      rw [step_advanced hp.drawing (by rwa [options_after])] at hf
      cases hf
  | true =>
      rw [(step_last hp.drawing (by rwa [options_after]) now).1] at hf
      exact ⟨rfl, (StepOutcome.finished.inj hf).symm.trans (Drawing.statusAt_iterate_next _ _ _ _)⟩

/-- **The pass that ends.**  A history that ends the pass under way does some number of steps of
its drawing, of which exactly the last one is the drawing's last, and gives their rows to the
host. -/
theorem EndsPass.exists_film {s : Session α} {d : Drawing α} (hd : s.drawing? = some d)
    {h : History α} {status : Status} (he : s.EndsPass h status) :
    ∃ n now, (∀ i < n, ((Drawing.next s.options)^[i] d).isLast s.options = false) ∧
      ((Drawing.next s.options)^[n] d).isLast s.options = true ∧
      s.commits h = Drawing.film s.options (n + 1) d ∧ status = d.pass.statusAt now := by
  obtain ⟨g, now, rfl, ⟨hdr, hc, hl⟩, hlast, hs⟩ := he.exists_last hd
  refine ⟨stepCount g, now, hl, hlast, ?_, hs⟩
  rw [commits_append, hc, Drawing.film_succ, commits_cons]
  show _ ++ (((s.after g).step now).result.commits ++ []) = _
  rw [(step_last hdr (by rwa [options_after]) now).1, List.append_nil, options_after]

end Session

end FractalRender
