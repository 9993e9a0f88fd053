import FractalRender.Proofs.Session.Transition

/-!
# Sessions — what a pass starts with

* `resolve_cases`, `resolve_evaluate`: the kernel that a pass settles on is an export for its
  fractal or the library's own, and it has a value at every point unless there is none.
* `Plan.Shape`: what a pass may be going to do.  Every point cloud has a system, so there is no
  plan without one.
* `sound_opening`: the drawing with which a pass starts (`opening`) has what holds of every pass
  under way.
-/

namespace FractalRender

variable {α : Type} [Scalar α]

/-- The picture is made pixel by pixel. -/
def Kind.Pointwise (k : Kind) : Prop := k.renderMode = .escapeTime ∨ k.renderMode = .dynamical

/-! ### The kernel -/

/-- A fractal that the library can draw itself has a value everywhere, if its picture is made pixel
by pixel. -/
theorem interpreted_of_hasInterpreted [Elementary α] {kind : Kind} (hm : kind.Pointwise)
    (hi : kind.hasInterpreted = true) (p : KernelParams α) (z : Complex α) :
    ∃ v, Kernel.interpreted? kind p z = some v := by
  cases kind <;>
    simp_all [Kernel.interpreted?, Kind.hasInterpreted, Kind.Pointwise, Kind.renderMode]

omit [Scalar α] in
/-- Only no kernel counts as none. -/
theorem KernelSource.used_eq_unavailable {source : KernelSource α} :
    source.used = .unavailable ↔ source = .unavailable := by
  cases source <;> simp [used]

variable [Elementary α]

/-- The kernel of a pass is an export for its fractal, or what there is without one. -/
theorem resolve_cases (kind : Kind) (slot : BackendSlot α) (o : Options α) (p : KernelParams α) :
    (resolveKernel kind slot o p).1 = .fallback kind ∨
      ∃ name e, (resolveKernel kind slot o p).1 = ⟨kind, .compiled name e⟩ := by
  unfold resolveKernel
  split
  · exact .inl rfl
  · split
    · exact .inl rfl
    · exact .inl rfl
    · split
      · exact .inr ⟨_, _, rfl⟩
      · exact .inl rfl

/-- **The kernel of a pass has a value everywhere**, unless the pass has nothing to draw with. -/
theorem resolve_evaluate {kind : Kind} (hm : kind.Pointwise) {slot : BackendSlot α}
    {o : Options α} {p : KernelParams α}
    (hs : (resolveKernel kind slot o p).1.source ≠ .unavailable) (q : KernelParams α)
    (z : Complex α) : ∃ v, (resolveKernel kind slot o p).1.evaluate q z = some v := by
  rcases resolve_cases kind slot o p with h | ⟨name, e, h⟩
  · rw [h] at hs ⊢
    cases hi : kind.hasInterpreted with
    | false => exact absurd (by simp [ResolvedKernel.fallback, hi]) hs
    | true =>
        obtain ⟨v, hv⟩ := interpreted_of_hasInterpreted hm hi q z
        exact ⟨v, by simp [ResolvedKernel.evaluate, ResolvedKernel.fallback, hi, hv]⟩
  · rw [h]
    exact ⟨e.call q z, rfl⟩

/-! ### The plan -/

/-- What a pass may be going to do. -/
inductive Plan.Shape (c : Config α) (f : Surface) (slot : BackendSlot α) (o : Options α) :
    Plan α → Prop where
  | pixels (notes : List (ResolveNote α)) (mode : c.kind.Pointwise)
      (source : (resolveKernel c.kind slot o c.params).1.source ≠ .unavailable) :
      Shape c f slot o
        ⟨.pixels (resolveKernel c.kind slot o c.params).1 (rowBands f o.rowsPerTick) 0,
          (resolveKernel c.kind slot o c.params).1.source.used,
          UInt32.ofNat (rowBands f o.rowsPerTick).size, notes⟩
  | points (system : PointCloud.Attractor) (mode : c.kind.renderMode = .pointCloud)
      (attractor : PointCloud.Attractor.ofKind? c.kind = some system) :
      Shape c f slot o
        ⟨.points (.new system c.maxIterations), .interpreted,
          (PointCloud.Sampler.new (α := α) system c.maxIterations).totalBatches o.pointsPerTick, []⟩
  | curve (mode : c.kind.renderMode = .lSystem) : Shape c f slot o ⟨.curve, .interpreted, 1, []⟩
  | unavailable (notes : List (ResolveNote α)) (mode : c.kind.Pointwise)
      (source : (resolveKernel c.kind slot o c.params).1.source = .unavailable) :
      Shape c f slot o ⟨.unavailable, .unavailable, 1, notes⟩

/-- Every point cloud has a system. -/
theorem exists_attractor {kind : Kind} (h : kind.renderMode = .pointCloud) :
    ∃ system, PointCloud.Attractor.ofKind? kind = some system := by
  cases kind <;> simp_all [PointCloud.Attractor.ofKind?, Kind.renderMode]

/-- The plan of a picture that is made pixel by pixel with a kernel. -/
theorem Plan.of_pixels {c : Config α} {slot : BackendSlot α} {o : Options α}
    (mode : c.kind.Pointwise)
    (source : (resolveKernel c.kind slot o c.params).1.source ≠ .unavailable) (f : Surface) :
    Plan.of c f slot o =
      ⟨.pixels (resolveKernel c.kind slot o c.params).1 (rowBands f o.rowsPerTick) 0,
        (resolveKernel c.kind slot o c.params).1.source.used,
        UInt32.ofNat (rowBands f o.rowsPerTick).size,
        (resolveKernel c.kind slot o c.params).2⟩ := by
  rcases mode with mode | mode
  all_goals
    simp only [Plan.of, mode]
    split
    · next hs => exact absurd hs source
    · rfl
    · rfl

/-- The plan of a picture that is made pixel by pixel, with nothing to make it with. -/
theorem Plan.of_unavailable {c : Config α} {slot : BackendSlot α} {o : Options α}
    (mode : c.kind.Pointwise)
    (source : (resolveKernel c.kind slot o c.params).1.source = .unavailable) (f : Surface) :
    Plan.of c f slot o =
      ⟨.unavailable, .unavailable, 1, (resolveKernel c.kind slot o c.params).2⟩ := by
  rcases mode with mode | mode
  all_goals simp only [Plan.of, mode, source]

/-- What a pass is going to do. -/
theorem Plan.of_shape (c : Config α) (f : Surface) (slot : BackendSlot α) (o : Options α) :
    Shape c f slot o (Plan.of c f slot o) := by
  have pointwise (mode : c.kind.Pointwise) : Shape c f slot o (Plan.of c f slot o) := by
    by_cases hs : (resolveKernel c.kind slot o c.params).1.source = .unavailable
    · rw [Plan.of_unavailable mode hs]
      exact .unavailable _ mode hs
    · rw [Plan.of_pixels mode hs]
      exact .pixels _ mode hs
  cases mode : c.kind.renderMode with
  | escapeTime => exact pointwise (.inl mode)
  | dynamical => exact pointwise (.inr mode)
  | pointCloud =>
      obtain ⟨system, hk⟩ := exists_attractor mode
      simp only [Plan.of, mode, hk]
      exact .points system mode hk
  | lSystem =>
      simp only [Plan.of, mode]
      exact .curve mode

/-- A plan counts as one without a backend when there is nothing to draw with. -/
theorem Plan.Shape.backend {c : Config α} {f : Surface} {slot : BackendSlot α} {o : Options α}
    {p : Plan α} (h : Shape c f slot o p) : p.backend = .unavailable ↔ p.work = .unavailable := by
  cases h with
  | pixels notes mode source => simpa [KernelSource.used_eq_unavailable] using source
  | points system mode attractor => simp
  | curve mode => simp
  | unavailable notes mode source => simp

/-- The work of a plan to draw pixel by pixel. -/
theorem Plan.Shape.pixels_work {c : Config α} {f : Surface} {slot : BackendSlot α} {o : Options α}
    {p : Plan α} (h : Shape c f slot o p) {k : ResolvedKernel α} {bands : Array PixelRect} {i : Nat}
    (hw : p.work = .pixels k bands i) :
    (c.kind.Pointwise ∧ (resolveKernel c.kind slot o c.params).1 = k ∧ k.source ≠ .unavailable) ∧
      bands = rowBands f o.rowsPerTick ∧ i = 0 ∧ p.steps = UInt32.ofNat bands.size := by
  cases h with
  | pixels notes mode source =>
      cases hw
      exact ⟨⟨mode, rfl, source⟩, rfl, rfl, rfl⟩
  | points system mode attractor => cases hw
  | curve mode => cases hw
  | unavailable notes mode source => cases hw

/-! ### The drawing with which a pass starts -/

namespace Session

/-- The drawing with which a pass over a session starts. -/
def opening (s : Session α) (now : Float) : Drawing α :=
  let plan := Plan.of s.config s.surface s.backend s.options
  ⟨⟨s.config, s.viewport, s.surface, plan.backend, now, plan.work⟩,
    plan.work.prepare (s.buffer.ensureSize s.surface)⟩

omit [Scalar α] [Elementary α] in
@[simp] theorem size_prepare (w : Work α) (b : PixelBuffer) : (w.prepare b).size = b.size := by
  cases w <;> rfl

/-- **What holds of every pass under way holds when it starts.** -/
theorem sound_opening {s : Session α} (h : s.surface.isEmpty = false) (now : Float) :
    Drawing.Sound s.options (s.opening now) := by
  have plan := Plan.of_shape s.config s.surface s.backend s.options
  refine ⟨h, (size_prepare _ _).trans (PixelBuffer.size_ensureSize _ _), plan.backend.trans ?_,
    ?_, ?_⟩
  · rw [Pass.isUnavailable_iff]
    rfl
  · intro k bands i hw
    obtain ⟨-, rfl, rfl, -⟩ := plan.pixels_work hw
    exact ⟨rfl, size_rowBands_pos h _⟩
  · intro k bands i hw
    obtain ⟨⟨mode, rfl, source⟩, -⟩ := plan.pixels_work hw
    exact ⟨source, resolve_evaluate mode source _⟩

end Session

end FractalRender
