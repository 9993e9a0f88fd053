import FractalRender.Proofs.Backend.Acceptance
import FractalRender.Proofs.Kernel.Coloring
import FractalRender.Proofs.Session.Pointwise

/-!
# Sessions — which pixels are interior

A pixel is coloured by the count of its point alone: as interior when that is the cap, and else on
the palette's scale, at a value from 0 up to but below the cap.  A count is the cap when the orbit
of the point goes on for as many steps.  The library's own kernels and those of the native module
count the steps of that orbit; of another module nothing is known, and the same is said of it as far
as it returns counts.

* `Config.Colors`: how the pixel of a point with a given count is coloured.
* `ResolvedKernel.Counts`: at each point the kernel counts the steps of the fractal's orbit.
* `colored_iff`: every pixel of every pass is coloured so.
-/

namespace FractalRender

open Binary64

/-! ### Kernels that count -/

section

variable {α : Type} [Scalar α] [Elementary α]

/-- At each point the value of the kernel is the index at which the orbit of the fractal stops, or
the cap. -/
def ResolvedKernel.Counts (k : ResolvedKernel α) (kind : Kind) (p : KernelParams α) : Prop :=
  ∀ z v, k.evaluate p z = some v →
    ∃ o, kind.orbit? p z = some o ∧ v = o.stopTime p.maxIterations

theorem counts_fallback (kind : Kind) (p : KernelParams α) :
    (ResolvedKernel.fallback kind).Counts kind p := by
  intro z v hv
  rw [fallback_evaluate] at hv
  exact exists_orbit hv

/-- **The kernels that come with the library count**: its own, and those of the native module. -/
theorem counts_resolve {slot : BackendSlot α} (native : ∀ m, slot = .loaded m → m = nativeModule α)
    (kind : Kind) (o : Options α) (p q : KernelParams α) :
    (resolveKernel kind slot o q).1.Counts kind p := by
  by_cases h : ∃ m e, Accepted kind slot o q m e
  · obtain ⟨m, e, accepted⟩ := h
    obtain rfl := native m accepted.loaded
    obtain ⟨e', exported, -, stops⟩ :=
      NativeModule.exists_export (α := α) (Option.isSome_of_eq_some accepted.signature)
    cases Option.some.inj (exported.symm.trans accepted.exported)
    rw [accepted.resolve]
    intro z v hv
    cases hv
    exact stops p z
  · rw [resolve_of_not_accepted (by simpa using h)]
    exact counts_fallback kind p

end

/-! ### How a pixel is coloured -/

section

variable [Elementary Float]

/-- The value at which the palette colours a point with the count `i`. -/
def Config.shadedAt (c : Config Float) (i : Nat) : Float :=
  Kernel.colorValue c.kind (ofNat i) c.maxIterations

/-- The colour is that of a point with the count `i`: that of the interior if the count is the cap,
and only then, and else one from the palette's scale, at a value from 0 up to but below the cap. -/
structure Config.Colors (c : Config Float) (i : Nat) (color : Rgb) : Prop where
  interior_iff : Palette.IsInterior (c.shadedAt i) (ofNat c.maxIterations.toNat) ↔
    i = c.maxIterations.toNat
  inside : i = c.maxIterations.toNat → color = interior
  outside : i < c.maxIterations.toNat →
    0.0 ≤ c.shadedAt i ∧ c.shadedAt i < ofNat c.maxIterations.toNat ∧
      color = c.palette.shade (c.shadedAt i) (ofNat c.maxIterations.toNat)

/-- The palette gives a count its colour. -/
theorem Config.colors_color (c : Config Float) {i : Nat} (hi : i ≤ c.maxIterations.toNat) :
    c.Colors i (c.palette.color (c.shadedAt i) (ofNat c.maxIterations.toNat)) := by
  obtain ⟨reaches, number, lower, -, -⟩ := Kernel.colorValue_bounds c.kind c.maxIterations hi
  have interior_iff : Palette.IsInterior (c.shadedAt i) (ofNat c.maxIterations.toNat) ↔
      i = c.maxIterations.toNat :=
    (or_iff_right (Bool.eq_false_iff.mp number)).trans reaches
  refine ⟨interior_iff, fun inside => ?_, fun outside => ⟨lower, ?_, ?_⟩⟩
  · rw [Palette.color_eq, if_pos (interior_iff.mpr inside)]
  · exact (Kernel.colorValue_lt_iff c.kind c.maxIterations hi).mpr outside
  · rw [Palette.color_eq, if_neg (mt interior_iff.mp outside.ne)]

/-- **A pixel is interior when its point has not escaped within the cap.**  The value that the
palette is given for a count reaches the cap when the count does, is a number from 0 to the cap, and
does not fall as the count grows.  So every pixel that a pass gives to the host is coloured by the
count of its point, wherever the kernel returns one; the kernels that come with the library always
do, and the pixel is interior when the orbit of its point goes on for as many steps as the cap. -/
theorem colored_iff :
    (∀ (kind : Kind) (cap : UInt32) (i : Nat), i ≤ cap.toNat →
      let value := Kernel.colorValue kind (ofNat i) cap
      (ofNat cap.toNat ≤ value ↔ i = cap.toNat) ∧ value.isNaN = false ∧ 0.0 ≤ value ∧
        value ≤ ofNat cap.toNat ∧
        ∀ j, i ≤ j → j ≤ cap.toNat → value ≤ Kernel.colorValue kind (ofNat j) cap) ∧
    ∀ s : Session Float, s.AtPassStart → s.config.kind.Pointwise →
      s.kernel.source ≠ .unavailable → ∀ h status, s.EndsPass h status → ∀ m ∈ s.commits h,
      ∀ x y, x < s.surface.width.toNat → y < s.surface.height.toNat → m.rows.Contains y →
        ∃ result color, s.kernel.evaluate s.config.params
            (s.viewport.toComplex ⟨ofNat x, ofNat y⟩ s.surface) = some result ∧
          m.buffer.pixel? x y = some color.solid ∧
          (∀ i ≤ s.config.maxIterations.toNat, result = ofNat i → s.config.Colors i color) ∧
          ((∀ k, s.backend = .loaded k → k = nativeModule Float) →
            ∃ o, s.config.kind.orbit? s.config.params
                (s.viewport.toComplex ⟨ofNat x, ofNat y⟩ s.surface) = some o ∧
              let i := stopIndex o.advance s.config.maxIterations.toNat o.start
              result = ofNat i ∧ s.config.Colors i color ∧
              (Palette.IsInterior (s.config.shadedAt i) (ofNat s.config.maxIterations.toNat) ↔
                GoesOn o.advance s.config.maxIterations.toNat o.start)) := by
  refine ⟨fun kind cap i hi => Kernel.colorValue_bounds kind cap hi, ?_⟩
  intro s hs mode source h status hh m hm x y hx hy hrows
  obtain ⟨result, evaluated, shown⟩ :=
    (Session.drawnBy_of_endsPass hs mode source hh).shown m hm x y hx hy hrows
  have colors (i) (hi : i ≤ s.config.maxIterations.toNat) (counted : result = ofNat i) :
      s.config.Colors i (s.config.palette.color
        (Kernel.colorValue s.config.kind result s.config.maxIterations)
        (ofNat s.config.maxIterations.toNat)) := by
    rw [counted]
    exact s.config.colors_color hi
  refine ⟨result, _, evaluated, shown, colors, fun native => ?_⟩
  obtain ⟨o, orbit, stopped⟩ := counts_resolve native s.config.kind s.options
    s.config.params s.config.params _ result evaluated
  have colored := colors _ (stopIndex_le o.advance s.config.maxIterations.toNat o.start) stopped
  exact ⟨o, orbit, stopped, colored,
    colored.interior_iff.trans (stopIndex_eq_iff o.advance _ o.start)⟩

end

/-- A Multibrot count of 5 does not reach the cap 13, although it is stretched to just below it; and
a Multibrot picture under the cap 0 is interior all over. -/
theorem colored_iff_multibrot :
    ¬ ofNat 13 ≤ Kernel.colorValue .multibrot (ofNat 5) 13 ∧
    let s : Session Float :=
      ((Session.new (.of .multibrot 0 .aurora) ⟨2, 1⟩ .standard).act ⟨0.0, .requestRender⟩).session
    let h : History Float := [⟨1.0, .step⟩]
    (∃ status, s.EndsPass h status) ∧
      ∀ m ∈ s.commits h, m.rows.Contains 0 →
        ∀ x < 2, m.buffer.pixel? x 0 = some interior.solid := by
  refine ⟨fun reached => ?_, ?_⟩
  · have := (colored_iff.1 .multibrot 13 5 (by decide)).1.mp reached
    exact absurd this (by decide)
  intro s h
  have hs : s.AtPassStart :=
    ⟨Session.new _ _ _, ⟨0.0, .requestRender⟩, ⟨_, _, _, [], rfl⟩, rfl, rfl⟩
  have mode : s.config.kind.Pointwise := .inl rfl
  have source : s.kernel.source ≠ .unavailable := nofun
  have one : (rowBands s.surface s.options.rowsPerTick).size = 1 := by
    rw [size_rowBands]
    show bandCount (1 : UInt32).toNat (max (8 : UInt32) 1).toNat = 1
    decide
  obtain ⟨status, ends⟩ := Session.exists_endsPass hs mode source (g := []) (by rw [one]; rfl) 1.0
  refine ⟨⟨status, ends⟩, fun m hm hrows x hx => ?_⟩
  obtain ⟨result, color, -, shown, -, native⟩ :=
    colored_iff.2 s hs mode source h status ends m hm x 0 hx (by decide) hrows
  obtain ⟨o, -, -, colored, -⟩ := native nofun
  rw [shown, colored.inside (Nat.le_zero.mp (stopIndex_le o.advance 0 o.start))]

end FractalRender
