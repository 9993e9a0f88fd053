import FractalRender.Backend.Native
import FractalRender.Browser
import FractalRender.Proofs.Backend.Resolution

/-!
# The native module — the same kernels

A fractal that the library can draw itself has a kernel in three tables: the library's own, the
native module's and the one for web pages.

* `native_call`, `browser_call`: the three give the same values.
* `evaluate_native`: with the native module, checked or not, a pass settles on a kernel with the
  values of the library's own.
-/

namespace FractalRender

variable {α : Type} [Scalar α] [Elementary α]

/-- **The native module has the library's own kernels.** -/
theorem native_call {kind : Kind} (hi : kind.hasInterpreted = true) (p : KernelParams α)
    (z : Complex α) :
    (NativeModule.export? kind.exportName).map (·.call p z) = Kernel.interpreted? kind p z := by
  cases kind with
  | magnet1 | magnet2 | lambda => cases hi
  | _ => rfl

/-- **Web pages have the library's own kernels.** -/
theorem browser_call {kind : Kind} (hi : kind.hasInterpreted = true) (p : KernelParams α)
    (z : Complex α) :
    (Browser.kernels.lookup kind.exportName).map (·.call p z) = Kernel.interpreted? kind p z := by
  cases kind with
  | magnet1 | magnet2 | lambda => cases hi
  | _ => rfl

/-- The kernel of a pass with a module is its export for the fractal, or what there is without
one. -/
theorem resolve_loaded (kind : Kind) (m : KernelModule α) (o : Options α) (p : KernelParams α) :
    (resolveKernel kind (.loaded m) o p).1 = .fallback kind ∨
      ∃ e, m.export? kind.exportName = some e ∧
        (resolveKernel kind (.loaded m) o p).1 = ⟨kind, .compiled m.name e⟩ := by
  rw [resolveKernel]
  split
  · exact .inl rfl
  · split
    · next e he => exact .inr ⟨e, (compiledExport_eq_ok.mp he).1, rfl⟩
    · exact .inl rfl

/-- Without a module a pass settles on what there is without one. -/
theorem resolve_notLoaded (kind : Kind) (o : Options α) (p : KernelParams α) :
    (resolveKernel kind .notLoaded o p).1 = .fallback kind := by
  rw [resolveKernel]
  split <;> rfl

omit [Scalar α] [Elementary α] in
/-- The kernel without a module, for a fractal that the library can draw itself. -/
theorem fallback_of_hasInterpreted {kind : Kind} (hi : kind.hasInterpreted = true) :
    (ResolvedKernel.fallback kind : ResolvedKernel α) = ⟨kind, .interpreted⟩ := by
  rw [ResolvedKernel.fallback, if_pos hi]

/-- **A pass with the native module has the values of the library's own kernel**, whether its export
was used or not. -/
theorem evaluate_native {kind : Kind} (hi : kind.hasInterpreted = true) (o : Options α)
    (p : KernelParams α) :
    (resolveKernel kind (.loaded (nativeModule α)) o p).1.source ≠ .unavailable ∧
      ∀ q z, (resolveKernel kind (.loaded (nativeModule α)) o p).1.evaluate q z =
        Kernel.interpreted? kind q z := by
  rcases resolve_loaded kind (nativeModule α) o p with h | ⟨e, he, h⟩
  · rw [h, fallback_of_hasInterpreted hi]
    exact ⟨nofun, fun _ _ => rfl⟩
  · rw [h]
    refine ⟨nofun, fun q z => ?_⟩
    have hcall := native_call hi q z
    rw [show NativeModule.export? kind.exportName = some e from he] at hcall
    exact hcall

end FractalRender
