import FractalRender.Browser
import FractalRender.Proofs.Session.Transition

/-!
# Sessions — requests that come to nothing

A request may be refused for its arguments, find nothing to draw on, be dropped or be deferred.
Only a refused one leaves the whole session as it was: the others have replaced the configuration,
the view, the surface or the compiled module by then.  None of them touches what drawing has come
to (`Undisturbed`).

* `Viewport.zoomAt_eq_error`, `Viewport.validated_eq_error`: which zooms and views are refused, and
  the number that the error names.
* `eq_of_refused`, `undisturbed_of_ignored`, `undisturbed_of_deferred`: what a request leaves alone.
* `refused_or_ignored`: these together, with configurations that a page gives as text.
-/

namespace FractalRender

section

variable {α : Type} [Scalar α]

/-- A scale that cannot be used is not finite or not above 0. -/
theorem isUsableScale_eq_false {a : α} :
    isUsableScale a = false ↔ Scalar.isFinite a = false ∨ ¬ (0.0 : α) < a := by
  rw [isUsableScale, Bool.and_eq_false_iff, decide_eq_false_iff_not]

/-- **A view is refused** for its scale, which is the number that the error names. -/
theorem Viewport.validated_eq_error {v : Viewport α} {e : ViewportError α} :
    v.validated = .error e ↔
      isUsableScale v.unitsPerPixel = false ∧ e = .invalidScale v.unitsPerPixel := by
  rw [validated, ofScale]
  cases isUsableScale v.unitsPerPixel with
  | true => exact iff_of_false nofun nofun
  | false =>
      constructor
      · intro h
        cases h
        exact ⟨rfl, rfl⟩
      · rintro ⟨-, rfl⟩
        rfl

/-- **A zoom is refused** for its factor, or else for the scale that it comes to. -/
theorem Viewport.zoomAt_eq_error {v : Viewport α} {p : Point α} {factor : α} {f : Surface}
    {e : ViewportError α} :
    v.zoomAt p factor f = .error e ↔
      (isUsableScale factor = false ∧ e = .invalidZoomFactor factor) ∨
      (isUsableScale factor = true ∧ isUsableScale (v.unitsPerPixel / factor) = false ∧
        e = .invalidScale (v.unitsPerPixel / factor)) := by
  rw [zoomAt]
  cases isUsableScale factor with
  | false =>
      constructor
      · intro h
        cases h
        exact .inl ⟨rfl, rfl⟩
      · rintro (⟨-, rfl⟩ | ⟨h, -⟩)
        · rfl
        · cases h
  | true =>
      dsimp only
      cases isUsableScale (v.unitsPerPixel / factor) with
      | false =>
          constructor
          · intro h
            cases h
            exact .inr ⟨rfl, rfl, rfl⟩
          · rintro (⟨h, -⟩ | ⟨-, -, rfl⟩)
            · cases h
            · rfl
      | true => exact iff_of_false nofun nofun

/-- Which zooms are refused, whatever the error. -/
theorem Viewport.exists_zoomAt_error {v : Viewport α} {p : Point α} {factor : α} {f : Surface} :
    (∃ e, v.zoomAt p factor f = .error e) ↔
      isUsableScale factor = false ∨ isUsableScale (v.unitsPerPixel / factor) = false := by
  simp only [zoomAt_eq_error]
  constructor
  · rintro ⟨e, ⟨hf, -⟩ | ⟨-, hs, -⟩⟩
    · exact .inl hf
    · exact .inr hs
  · intro h
    cases hf : isUsableScale factor with
    | false => exact ⟨_, .inl ⟨rfl, rfl⟩⟩
    | true =>
        rw [hf] at h
        exact ⟨_, .inr ⟨rfl, h.resolve_left Bool.noConfusion, rfl⟩⟩

end

namespace Session

variable {α : Type}

/-- What drawing has come to is the same in both sessions. -/
structure Undisturbed (s t : Session α) : Prop where
  buffer : t.buffer = s.buffer
  pass : t.pass = s.pass
  pending : t.pending = s.pending
  progress : t.progress = s.progress
  status : t.status = s.status

theorem undisturbed_turnTo (s : Session α) (c : Scene α) (slot : BackendSlot α) :
    Undisturbed s (s.turnTo c slot) :=
  ⟨rfl, rfl, rfl, rfl, rfl⟩

variable [Scalar α] [Elementary α]

/-- **A refused request** leaves the whole session as it was. -/
theorem eq_of_refused {s : Session α} {a : Action α} {e : ViewportError α}
    (h : (s.act a).result = .refused e) : (s.act a).session = s := by
  revert h
  refine act_cases fun r t log tr => ?_
  intro h
  cases tr with
  | refused e op => rfl
  | _ => cases h

/-- **A request that is ignored** leaves what drawing has come to as it was. -/
theorem undisturbed_of_ignored {s : Session α} {a : Action α}
    (h : (s.act a).result = .outcome .invalidSurface ∨ (s.act a).result = .outcome .dropped) :
    Undisturbed s (s.act a).session := by
  revert h
  refine act_cases fun r t log tr => ?_
  intro h
  cases tr with
  | empty c slot => exact undisturbed_turnTo s c slot
  | dropped c slot => exact undisturbed_turnTo s c slot
  | _ => rcases h with h | h <;> cases h

/-- **A request that is deferred** is remembered, and leaves all else that drawing has come to as it
was. -/
theorem undisturbed_of_deferred {s : Session α} {a : Action α}
    (h : (s.act a).result = .outcome .deferred) :
    Undisturbed { s with pending := true } (s.act a).session := by
  revert h
  refine act_cases fun r t log tr => ?_
  intro h
  cases tr with
  | deferred c slot => exact ⟨rfl, rfl, rfl, rfl, rfl⟩
  | _ => cases h

theorem setViewport_eq_refused {s : Session α} {v : Viewport α} {now : Float}
    {e : ViewportError α} :
    (s.perform now (.setViewport v)).result = .refused e ↔ v.validated = .error e := by
  simp only [perform, answer, setViewport]
  cases v.validated <;> simp [Answer.ofExcept]

theorem zoomAt_eq_refused {s : Session α} {p : Point α} {factor : α} {now : Float}
    {e : ViewportError α} :
    (s.perform now (.zoomAt p factor)).result = .refused e ↔
      s.viewport.zoomAt p factor s.surface = .error e := by
  simp only [perform, answer, zoomAt]
  cases s.viewport.zoomAt p factor s.surface <;> simp [Answer.ofExcept]

/-- **Requests that come to nothing.**  A zoom is refused exactly when its factor or the scale that
it comes to is not finite or not above 0, and a view exactly when its scale is.  A refused request
leaves the whole session as it was; one that finds nothing to draw on or is dropped leaves what
drawing has come to as it was, and so does a deferred one, but that it is remembered.  A page that
gives a text which is no configuration keeps its session as it was. -/
theorem refused_or_ignored (s : Session Float) (now : Float) :
    (∀ (p : Point Float) (factor : Float),
      (∃ e, (s.perform now (.zoomAt p factor)).result = .refused e) ↔
        (factor.isFinite = false ∨ ¬ 0.0 < factor) ∨
        (s.viewport.unitsPerPixel / factor).isFinite = false ∨
          ¬ 0.0 < s.viewport.unitsPerPixel / factor) ∧
    (∀ v : Viewport Float, (∃ e, (s.perform now (.setViewport v)).result = .refused e) ↔
      v.unitsPerPixel.isFinite = false ∨ ¬ 0.0 < v.unitsPerPixel) ∧
    (∀ op : Operation Float,
      ((∃ e, (s.perform now op).result = .refused e) → (s.perform now op).session = s) ∧
      ((s.perform now op).result = .outcome .invalidSurface ∨
          (s.perform now op).result = .outcome .dropped →
        Undisturbed s (s.perform now op).session) ∧
      ((s.perform now op).result = .outcome .deferred →
        Undisturbed { s with pending := true } (s.perform now op).session)) ∧
    ∀ text, (Json.deserialize? text : Option (Config Float)) = none →
      Browser.PageSession.setConfigJson ⟨s⟩ text now = (⟨s⟩, .error .config) := by
  refine ⟨?_, ?_, ?_, ?_⟩
  · intro p factor
    simp only [zoomAt_eq_refused]
    rw [Viewport.exists_zoomAt_error, isUsableScale_eq_false, isUsableScale_eq_false]
    rfl
  · intro v
    simp only [setViewport_eq_refused, Viewport.validated_eq_error, exists_and_left, exists_eq,
      and_true]
    exact isUsableScale_eq_false
  · intro op
    refine ⟨?_, ?_, ?_⟩
    · rintro ⟨e, h⟩
      exact eq_of_refused (a := ⟨now, op⟩) h
    · intro h
      exact undisturbed_of_ignored (a := ⟨now, op⟩) h
    · intro h
      exact undisturbed_of_deferred (a := ⟨now, op⟩) h
  · intro text h
    rw [Browser.PageSession.setConfigJson, Browser.readConfig, h]

/-- A curve is being drawn: a zoom so far out that the scale is infinite is refused, a surface
without pixels is not drawn on, a drag is deferred, and a bare word is no configuration. -/
theorem refused_or_ignored_koch :
    let s : Session Float :=
      ((new (.of .koch 3 .aurora) ⟨2, 2⟩ .standard).act ⟨0.0, .requestRender⟩).session
    (s.perform 1.0 (.zoomAt ⟨0.0, 0.0⟩ 5e-324)).session = s ∧
      Undisturbed s (s.perform 1.0 (.resize ⟨0, 1⟩)).session ∧
      Undisturbed { s with pending := true } (s.perform 1.0 (.pan ⟨1.0, 0.0⟩)).session ∧
      (Browser.PageSession.setConfigJson ⟨s⟩ "koch" 1.0).1 = ⟨s⟩ := by
  intro s
  obtain ⟨zoom, -, ops, text⟩ := refused_or_ignored s 1.0
  refine ⟨?_, ?_, ?_, ?_⟩
  · exact (ops _).1 ((zoom _ _).mpr (.inr (.inl (by decide +kernel))))
  · exact (ops _).2.1 (.inl rfl)
  · exact (ops _).2.2 rfl
  · rw [text _ (by rfl)]

end Session

end FractalRender
