import FractalRender.Proofs.Session.Opening
import FractalRender.Scalar.Binary64

/-!
# Resolution — which kernel a pass settles on

An export is *accepted* (`Accepted`) when a module is loaded, the module has it under the fractal's
name, it takes the fractal's arguments, and it passes the check or is not to be checked.

* `compiledExport_eq_ok`: the export of a module that can be used, by these conditions.
* `Accepted.resolve`, `resolve_of_not_accepted`: a pass settles on the accepted export, and on the
  library's own kernel when there is none.
* `resolve_congr`: of a module nothing counts but its name and the export for the fractal.
* `resolution`: these together, with the values that a pass then finds.
-/

namespace FractalRender

/-- A fractal whose kernel takes arguments is drawn pixel by pixel. -/
theorem Kind.pointwise_of_signature {kind : Kind} (h : kind.signature?.isSome = true) :
    kind.Pointwise := by
  cases kind <;> simp_all [signature?, renderMode, Pointwise]

variable {α : Type} [Scalar α] [Elementary α]

/-- A fractal that the library cannot draw itself has no value without a module. -/
theorem interpreted_of_not_hasInterpreted {kind : Kind} (hi : kind.hasInterpreted = false)
    (p : KernelParams α) (z : Complex α) : Kernel.interpreted? kind p z = none := by
  cases kind with
  | magnet1 | magnet2 | lambda => rfl
  | _ => cases hi

/-! ### Accepted exports -/

/-- The check passes an export on as it is. -/
theorem eq_of_validateExport {kind : Kind} {e e' : Export α} {p : KernelParams α} {tolerance : α}
    (h : validateExport kind e p tolerance = .ok e') : e' = e := by
  rw [validateExport] at h
  split at h
  · cases h
  · split at h
    · cases h
    · exact (Except.ok.inj h).symm

theorem isOk_validateExport {kind : Kind} {e : Export α} {p : KernelParams α} {tolerance : α} :
    (validateExport kind e p tolerance).isOk = true ↔
      validateExport kind e p tolerance = .ok e := by
  constructor
  · intro h
    cases hv : validateExport kind e p tolerance with
    | error err =>
        rw [hv] at h
        cases h
    | ok e' => rw [eq_of_validateExport hv]
  · intro h
    rw [h]
    rfl

/-- **The export of a module that can be used** is the one under the fractal's name, if it takes the
fractal's arguments and passes the check when there is one. -/
theorem compiledExport_eq_ok {kind : Kind} {m : KernelModule α} {o : Options α}
    {p : KernelParams α} {e : Export α} :
    compiledExport kind m o p = .ok e ↔ m.export? kind.exportName = some e ∧
      kind.signature? = some e.signature ∧
      (o.validateCompiled = true →
        (validateExport kind e p o.validationTolerance).isOk = true) := by
  rw [isOk_validateExport, compiledExport]
  cases he : m.export? kind.exportName with
  | none => exact iff_of_false nofun nofun
  | some e' =>
      dsimp only
      by_cases hs : some e'.signature = kind.signature?
      · rw [if_neg (not_not.mpr hs)]
        cases hv : o.validateCompiled with
        | false =>
            rw [if_neg Bool.false_ne_true]
            constructor
            · intro h
              cases h
              exact ⟨rfl, hs.symm, nofun⟩
            · rintro ⟨h, -⟩
              rw [Option.some.inj h]
        | true =>
            rw [if_pos rfl]
            constructor
            · intro h
              obtain rfl := eq_of_validateExport h
              exact ⟨rfl, hs.symm, fun _ => h⟩
            · rintro ⟨h, -, valid⟩
              rw [Option.some.inj h]
              exact valid rfl
      · rw [if_pos hs]
        refine iff_of_false nofun ?_
        rintro ⟨h, signature, -⟩
        exact hs (Option.some.inj h ▸ signature.symm)

/-- The export is the one that a pass may use: a module is loaded and has it under the fractal's
name, it takes the fractal's arguments, and it passes the check unless there is none. -/
structure Accepted (kind : Kind) (slot : BackendSlot α) (o : Options α) (p : KernelParams α)
    (m : KernelModule α) (e : Export α) : Prop where
  loaded : slot = .loaded m
  exported : m.export? kind.exportName = some e
  signature : kind.signature? = some e.signature
  valid : o.validateCompiled = true → (validateExport kind e p o.validationTolerance).isOk = true

variable {kind : Kind} {slot : BackendSlot α} {o : Options α} {p : KernelParams α}

/-- There is at most one accepted export. -/
theorem Accepted.unique {m m' : KernelModule α} {e e' : Export α} (h : Accepted kind slot o p m e)
    (h' : Accepted kind slot o p m' e') : m' = m ∧ e' = e := by
  cases h'.loaded.symm.trans h.loaded
  exact ⟨rfl, Option.some.inj (h'.exported.symm.trans h.exported)⟩

theorem Accepted.compiled {m : KernelModule α} {e : Export α} (h : Accepted kind slot o p m e) :
    compiledExport kind m o p = .ok e :=
  compiledExport_eq_ok.mpr ⟨h.exported, h.signature, h.valid⟩

/-! ### The kernel of a pass -/

/-- **A pass settles on the accepted export.** -/
theorem Accepted.resolve {m : KernelModule α} {e : Export α} (h : Accepted kind slot o p m e) :
    (resolveKernel kind slot o p).1 = ⟨kind, .compiled m.name e⟩ := by
  have compiled := h.compiled
  obtain ⟨rfl, -, signature, -⟩ := h
  rw [resolveKernel, signature, if_neg (by simp), compiled]

/-- **Without an accepted export** a pass settles on what there is without a module. -/
theorem resolve_of_not_accepted (h : ∀ m e, ¬ Accepted kind slot o p m e) :
    (resolveKernel kind slot o p).1 = .fallback kind := by
  unfold resolveKernel
  split
  · rfl
  · cases slot with
    | notLoaded => rfl
    | failed reason => rfl
    | loaded m =>
        cases hc : compiledExport kind m o p with
        | error err => simp only [hc]
        | ok e =>
            obtain ⟨exported, signature, valid⟩ := compiledExport_eq_ok.mp hc
            exact absurd ⟨rfl, exported, signature, valid⟩ (h m e)

/-- Whether an export of a module can be used depends on that export alone. -/
theorem compiledExport_congr {m m' : KernelModule α}
    (h : m.export? kind.exportName = m'.export? kind.exportName) :
    compiledExport kind m o p = compiledExport kind m' o p := by
  rw [compiledExport, compiledExport, h]

/-- **Of a module nothing counts** but its name and the export for the fractal. -/
theorem resolve_congr {m m' : KernelModule α} (name : m.name = m'.name)
    (exported : m.export? kind.exportName = m'.export? kind.exportName) :
    resolveKernel kind (.loaded m) o p = resolveKernel kind (.loaded m') o p := by
  simp only [resolveKernel, compiledExport_congr exported, name]

omit [Scalar α] [Elementary α] in
/-- Without a module there is nothing for the fractals that the library cannot draw itself. -/
theorem fallback_source_eq_unavailable :
    (ResolvedKernel.fallback kind : ResolvedKernel α).source = .unavailable ↔
      kind.hasInterpreted = false := by
  rw [ResolvedKernel.fallback]
  cases kind.hasInterpreted <;> simp

/-- Without a module the values are those of the library's own kernel. -/
theorem fallback_evaluate (kind : Kind) (q : KernelParams α) (z : Complex α) :
    (ResolvedKernel.fallback kind).evaluate q z = Kernel.interpreted? kind q z := by
  rw [ResolvedKernel.evaluate, ResolvedKernel.fallback]
  cases kind.hasInterpreted <;> rfl

/-- What there is without a module has a value unless it is nothing. -/
theorem fallback_evaluate_eq_none (hs : kind.signature?.isSome = true) (q : KernelParams α)
    (z : Complex α) : (ResolvedKernel.fallback kind).evaluate q z = none ↔
      (ResolvedKernel.fallback kind : ResolvedKernel α).source = .unavailable := by
  rw [fallback_source_eq_unavailable, fallback_evaluate]
  cases hi : kind.hasInterpreted with
  | true =>
      obtain ⟨v, hv⟩ := interpreted_of_hasInterpreted (Kind.pointwise_of_signature hs) hi q z
      simp [hv]
  | false => exact iff_of_true (interpreted_of_not_hasInterpreted hi q z) rfl

/-- **Which kernel a pass settles on.**  It is the accepted export if there is one, and else the
library's own kernel, if the library has one.  An accepted export gives the values; a fractal whose
kernel takes arguments lacks a value, and then at every point, exactly when the pass has settled on
nothing, which is when no export was accepted and the library has no kernel of its own.  Modules of
one name with the same export for the fractal come to the same. -/
theorem resolution (kind : Kind) (slot : BackendSlot α) (o : Options α) (p : KernelParams α) :
    let k := (resolveKernel kind slot o p).1
    (∀ name e, k.source = .compiled name e ↔ ∃ m, Accepted kind slot o p m e ∧ m.name = name) ∧
    ((∀ m e, ¬ Accepted kind slot o p m e) →
      k.source = if kind.hasInterpreted then .interpreted else .unavailable) ∧
    (∀ m e, Accepted kind slot o p m e → ∀ q z, k.evaluate q z = some (e.call q z)) ∧
    (kind.signature?.isSome = true → ∀ q z, k.evaluate q z = none ↔ k.source = .unavailable) ∧
    (k.source = .unavailable ↔
      (∀ m e, ¬ Accepted kind slot o p m e) ∧ kind.hasInterpreted = false) ∧
    ∀ m m' : KernelModule α, m.name = m'.name →
      m.export? kind.exportName = m'.export? kind.exportName →
      resolveKernel kind (.loaded m) o p = resolveKernel kind (.loaded m') o p := by
  intro k
  by_cases h : ∃ m e, Accepted kind slot o p m e
  · obtain ⟨m, e, h⟩ := h
    have hk : k = ⟨kind, .compiled m.name e⟩ := h.resolve
    rw [hk]
    refine ⟨?_, ?_, ?_, ?_, ?_, fun _ _ => resolve_congr⟩
    · intro name e'
      constructor
      · intro hs
        cases hs
        exact ⟨m, h, rfl⟩
      · rintro ⟨m', h', rfl⟩
        obtain ⟨rfl, rfl⟩ := h.unique h'
        rfl
    · intro hno
      exact absurd h (hno m e)
    · intro m' e' h' q z
      obtain ⟨rfl, rfl⟩ := h.unique h'
      rfl
    · intro _ q z
      constructor
      · intro hn
        cases hn
      · intro hs
        cases hs
    · constructor
      · intro hs
        cases hs
      · rintro ⟨hno, -⟩
        exact absurd h (hno m e)
  · have hno : ∀ m e, ¬ Accepted kind slot o p m e := by simpa using h
    have hk : k = .fallback kind := resolve_of_not_accepted hno
    rw [hk]
    refine ⟨?_, ?_, ?_, ?_, ?_, fun _ _ => resolve_congr⟩
    · intro name e
      constructor
      · rw [ResolvedKernel.fallback]
        cases kind.hasInterpreted <;> simp
      · rintro ⟨m, h', -⟩
        exact absurd h' (hno m e)
    · intro _
      rfl
    · intro m e h'
      exact absurd h' (hno m e)
    · exact fallback_evaluate_eq_none
    · rw [fallback_source_eq_unavailable]
      exact (and_iff_right hno).symm

/-- A module with nothing but a kernel for the lambda map: that one passes the check and is used,
the Mandelbrot set is drawn with the library's own kernel, and a magnet map has no value. -/
theorem resolution_partial :
    let e : Export Float := .escape fun _ _ => 0.0
    let m := ((ExportTable.empty "partial").insert "lambda_fractale" e).toModule
    let k (kind : Kind) := (resolveKernel kind (.loaded m) .standard ⟨64, .zero, 2.0⟩).1
    (k .lambda).source = .compiled "partial" e ∧ (∀ q z, (k .lambda).evaluate q z = some 0.0) ∧
      (k .mandelbrot).source = .interpreted ∧ ∀ q z, (k .magnet1).evaluate q z = none := by
  intro e m k
  have accepted : Accepted .lambda (.loaded m) .standard ⟨64, .zero, 2.0⟩ m e :=
    ⟨rfl, rfl, rfl, fun _ => by decide +kernel⟩
  have missing {kind : Kind} (h : m.export? kind.exportName = none) (m' : KernelModule Float)
      (e' : Export Float) : ¬ Accepted kind (.loaded m) .standard ⟨64, .zero, 2.0⟩ m' e' := by
    rintro ⟨loaded, exported, -, -⟩
    cases loaded
    cases h.symm.trans exported
  obtain ⟨compiled, -, value, -⟩ :=
    resolution Kind.lambda (.loaded m) .standard ⟨64, .zero, 2.0⟩
  obtain ⟨-, interpreted, -⟩ :=
    resolution Kind.mandelbrot (.loaded m) .standard ⟨64, .zero, 2.0⟩
  obtain ⟨-, -, -, none, unavailable, -⟩ :=
    resolution Kind.magnet1 (.loaded m) .standard ⟨64, .zero, 2.0⟩
  refine ⟨(compiled _ _).mpr ⟨m, accepted, rfl⟩, value m e accepted, ?_, ?_⟩
  · exact interpreted (missing rfl)
  · intro q z
    exact (none rfl q z).mpr (unavailable.mpr ⟨missing rfl, rfl⟩)

end FractalRender
