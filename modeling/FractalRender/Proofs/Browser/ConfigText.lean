import FractalRender.Proofs.Browser.Loop
import FractalRender.Proofs.Json.Data
import FractalRender.Proofs.Session.View

/-!
# Pages — the configuration as text

A page that gives a session its own configuration back asks for a fresh pass and for nothing else:
the text reads as the configuration, and a configuration that is equal to the old one brings no
view of its own.  Both need the doubles of the configuration to be finite, which no operation can
break: a configuration is the standard one, or it was read.

* `config_perform`: what becomes of the configuration of a session.
* `Reachable.allFinite`: its doubles are finite.
* `setConfig_self`: a session given its own configuration does what it does when it is asked for a
  pass.
* `configJson_fixed`: the same through text.
-/

namespace FractalRender

open Json

/-- **A session given its own configuration** does what it does when it is asked for a pass. -/
theorem Session.setConfig_self [Elementary Float] {s : Session Float} (h : AllFinite s.config)
    (now : Float) : s.setConfig s.config now = s.requestRender now := by
  have finite : s.config.multibrotPower.isFinite = true := h _ (by simp [doubles])
  have stays : s.config.movesView s.config = false :=
    Config.movesView_eq_false_iff.mpr
      (Config.keepsView_self.mpr fun _ => Binary64.isNaN_of_isFinite finite)
  rw [setConfig, stays]
  rfl

namespace Browser

/-- A text is read as a configuration if it was written for it. -/
theorem readConfig_serialize {c : Config Float} (hfin : AllFinite c)
    (hback : ∀ x ∈ doubles c, ReadsBack x) : readConfig (serialize c) = .ok c := by
  rw [readConfig, (roundTrips c).1 hfin hback]

theorem allFinite_of_readConfig {text : String} {c : Config Float}
    (h : readConfig text = .ok c) : AllFinite c := by
  rw [readConfig] at h
  split at h
  · next c' hread =>
      cases h
      obtain ⟨j, -, hj⟩ := Option.bind_eq_some_iff.mp hread
      exact Config.allFinite_of_decode? hj
  · cases h

namespace PageSession

/-- The configuration of a session made of texts is the standard one, or it was read. -/
theorem config_new {surface : Surface} {configJson optionsJson : String} {p : PageSession}
    (h : new surface configJson optionsJson = .ok p) :
    p.inner.config = .standard ∨ readConfig configJson = .ok p.inner.config := by
  rw [new] at h
  split at h
  all_goals
    obtain ⟨c, hc, h⟩ := exists_of_bind_eq_ok h
    dsimp only at h
    have made : p.inner.config = c := by
      split at h
      all_goals
        obtain ⟨o, -, h⟩ := exists_of_bind_eq_ok h
        cases h
        rfl
    rw [made]
  · cases hc
    exact .inl rfl
  · exact .inr hc

/-- **What becomes of the configuration**: only a text that is one replaces it. -/
theorem config_perform (p : PageSession) (now : Float) (op : PageOperation) :
    (p.perform now op).inner.config =
      match op with
      | .setConfigJson text => (readConfig text).toOption.getD p.inner.config
      | _ => p.inner.config := by
  have asked (s : Session Float) : (s.requestRender now).session.config = s.config :=
    congrArg Scene.config (Session.scene_requestRender s now)
  cases op with
  | setConfigJson text =>
      simp only [perform, setConfigJson]
      cases readConfig text with
      | ok c =>
          show (p.inner.setConfig c now).session.config = c
          unfold Session.setConfig
          split
          · exact asked _
          · exact asked _
      | error e => rfl
  | requestRender => exact asked p.inner
  | step => exact congrArg Scene.config (Session.scene_step p.inner now)
  | zoomAt position factor =>
      simp only [perform, zoomAt, Session.zoomAt]
      split
      · exact asked _
      · rfl
  | pan drag => exact asked _
  | resetView => exact asked _
  | resize surface => exact asked _
  | attachExports moduleName o =>
      simp only [perform, attachExports]
      cases pageExports? moduleName o with
      | some t => exact asked _
      | none => rfl
  | attachNative => exact asked _
  | backendFailed reason => rfl

/-- **The doubles of a page's configuration are finite.** -/
theorem Reachable.allFinite {p : PageSession} (h : p.Reachable) : AllFinite p.inner.config := by
  induction h with
  | new h =>
      rcases config_new h with hstandard | hread
      · rw [hstandard]
        decide +kernel
      · exact allFinite_of_readConfig hread
  | @perform p _ now op ih =>
      rw [config_perform]
      split
      · next text =>
          cases hread : readConfig text with
          | ok c => exact allFinite_of_readConfig hread
          | error e => exact ih
      · exact ih

/-- **The text of a configuration is a fixed point.**  Whatever a page has done so far, the text of
the session's configuration reads as that configuration, if the digits of its doubles do.  Given back
to the session, it has the effect and the outcome of a request for a pass, and the view stays as it
is. -/
theorem configJson_fixed {p : PageSession} (hp : p.Reachable)
    (hback : ∀ x ∈ doubles p.inner.config, ReadsBack x) (now : Float) :
    AllFinite p.inner.config ∧
    readConfig p.configJson = .ok p.inner.config ∧
    p.inner.setConfig p.inner.config now = p.inner.requestRender now ∧
    p.setConfigJson p.configJson now =
      ((p.requestRender now).1, .ok (p.requestRender now).2) ∧
    (p.setConfigJson p.configJson now).1.inner.config = p.inner.config ∧
    (p.setConfigJson p.configJson now).1.inner.viewport = p.inner.viewport := by
  have hfin := hp.allFinite
  have read : readConfig p.configJson = .ok p.inner.config := readConfig_serialize hfin hback
  have same := Session.setConfig_self hfin now
  have effect : p.setConfigJson p.configJson now =
      ((p.requestRender now).1, .ok (p.requestRender now).2) := by
    simp only [setConfigJson, read, same]
    rfl
  have scene := Session.scene_requestRender p.inner now
  refine ⟨hfin, read, same, effect, ?_, ?_⟩
  · rw [effect]
    exact congrArg Scene.config scene
  · rw [effect]
    exact congrArg Scene.viewport scene

/-- A Multibrot that was asked for by text and zoomed into, before a text that was refused. -/
theorem configJson_fixed_zoomed :
    let c : Config Float :=
      { (.standard : Config Float) with
        kind := .multibrot, juliaConstant := ⟨-0.0, 0.156⟩, multibrotPower := 3.0 }
    let p₀ : PageSession := ⟨.new .standard ⟨2, 1⟩ .standard⟩
    let p := ((p₀.perform 0.0 (.setConfigJson (serialize c))).perform 1.0
      (.zoomAt ⟨0.0, 0.0⟩ 2.0)).perform 2.0 (.setConfigJson "mandelbrot")
    p.Reachable ∧ p.inner.config = c ∧
      p.setConfigJson p.configJson 3.0 =
        ((p.requestRender 3.0).1, .ok (p.requestRender 3.0).2) ∧
      (p.setConfigJson p.configJson 3.0).1.inner.viewport = p.inner.viewport := by
  have made : new ⟨2, 1⟩ "" "" = .ok ⟨.new .standard ⟨2, 1⟩ .standard⟩ := rfl
  intro c p₀ p
  have hp : p.Reachable := .perform (.perform (.perform (.new made) _ _) _ _) _ _
  have hfin : AllFinite c := by decide +kernel
  have hback : ∀ x ∈ doubles c, ReadsBack x := by decide +kernel
  have hrefused : (readConfig "mandelbrot").toOption = none := by rfl
  have hconfig : p.inner.config = c := by
    rw [config_perform]
    simp only [hrefused, config_perform, readConfig_serialize hfin hback]
    rfl
  obtain ⟨-, -, -, effect, -, view⟩ := configJson_fixed hp (by rw [hconfig]; exact hback) 3.0
  exact ⟨hp, hconfig, effect, view⟩

end PageSession

end Browser

end FractalRender
