import FractalRender.Proofs.Backend.Agreement
import FractalRender.Proofs.Backend.Native

/-!
# The native module — always accepted

A kernel of the native module returns a count of at most the cap, and a fractal that the library can
draw itself has the same kernel in the library.  So the check finds every value in range and no
difference at all, and there is no tolerance that refuses that.

* `NativeModule.exists_export`: the kernel that the module has for a fractal.
* `NativeModule.exportNames_eq`, `NativeModule.isSome_export?`: the names that it answers to.
* `validateExport_native`: the check never refuses one of its kernels.
* `native_accepted`: a pass with the native module settles on its kernel.
-/

namespace FractalRender

/-! ### Names and kernels -/

namespace NativeModule

/-- **The listed names** are those of the fractals whose kernels take arguments. -/
theorem exportNames_eq :
    exportNames = (Kind.all.filter fun k => k.signature?.isSome).map Kind.exportName := by
  decide

theorem mem_exportNames {name : String} :
    name ∈ exportNames ↔ ∃ kind : Kind, kind.signature?.isSome = true ∧ kind.exportName = name := by
  simp [exportNames_eq, Kind.mem_all]

variable {α : Type} [Scalar α] [Elementary α]

/-- **The kernel for a fractal** takes the fractal's arguments, and its value is the stop time of the
fractal's orbit. -/
theorem exists_export {kind : Kind} (hs : kind.signature?.isSome = true) :
    ∃ e : Export α, export? kind.exportName = some e ∧ kind.signature? = some e.signature ∧
      ∀ p z, ∃ o, kind.orbit? p z = some o ∧ e.call p z = o.stopTime p.maxIterations := by
  cases kind with
  | barnsley | sierpinski | koch => cases hs
  | _ => exact ⟨_, rfl, rfl, fun p z => ⟨_, rfl, rfl⟩⟩

/-- **A name has a kernel** when it is listed. -/
theorem isSome_export? {name : String} :
    (export? name : Option (Export α)).isSome = true ↔ name ∈ exportNames := by
  constructor
  · intro h
    unfold export? at h
    split at h
    all_goals first | decide | cases h
  · intro h
    obtain ⟨kind, hs, rfl⟩ := mem_exportNames.mp h
    obtain ⟨e, he, -⟩ := exists_export (α := α) hs
    rw [he]
    rfl

end NativeModule

/-! ### The check -/

/-- A kernel's count is in range. -/
theorem isInRange_stopTime (o : Orbit) (cap : UInt32) :
    isInRange (o.stopTime cap : Float) cap = true := by
  have hle := stopIndex_le o.advance cap.toNat o.start
  have hcap : cap.toNat < 2 ^ 53 := cap.toNat_lt.trans (by decide)
  rw [isInRange, Bool.and_eq_true]
  refine ⟨decide_eq_true ?_, decide_eq_true ?_⟩
  · exact (Binary64.ofNat_le_ofNat (i := 0) (by decide) (hle.trans_lt hcap)).mpr (Nat.zero_le _)
  · exact (Binary64.ofNat_le_ofNat (hle.trans_lt hcap) hcap).mpr hle

/-- A count differs from itself by nothing. -/
theorem abs_sub_self_stopTime (o : Orbit) (cap : UInt32) :
    (o.stopTime cap - o.stopTime cap : Float).abs = 0.0 := by
  have hle := stopIndex_le o.advance cap.toNat o.start
  have finite : (o.stopTime cap : Float).isFinite = true :=
    Binary64.isFinite_ofNat (hle.trans_lt (cap.toNat_lt.trans (by decide)))
  rw [Binary64.sub_self finite]
  rfl

section

variable [Elementary Float] {kind : Kind} {e : Export Float}

/-- A kernel of the native module agrees everywhere with the library's own one. -/
theorem agrees_native (hs : kind.signature?.isSome = true)
    (he : NativeModule.export? kind.exportName = some e) (p : KernelParams Float)
    {tolerance : Float} (ht : 0.0 ≤ tolerance) (z : Complex Float) :
    Agrees kind e p tolerance z := by
  obtain ⟨e', he', -, hstop⟩ := NativeModule.exists_export (α := Float) hs
  cases Option.some.inj (he.symm.trans he')
  obtain ⟨o, -, hcall⟩ := hstop p z
  refine ⟨isInRange_iff.mp (hcall ▸ isInRange_stopTime o p.maxIterations), ?_⟩
  intro d hd
  rw [difference?] at hd
  cases hi : kind.hasInterpreted with
  | false =>
      rw [interpreted_of_not_hasInterpreted hi] at hd
      cases hd
  | true =>
      have hsame := native_call hi p z
      rw [he, Option.map_some, hcall] at hsame
      rw [← hsame, hcall] at hd
      obtain rfl := (abs_sub_self_stopTime o p.maxIterations).symm.trans (Option.some.inj hd)
      exact ht

/-- **The check never refuses a kernel of the native module**, with whatever tolerance from zero
on. -/
theorem validateExport_native (hs : kind.signature?.isSome = true)
    (he : NativeModule.export? kind.exportName = some e) (p : KernelParams Float)
    {tolerance : Float} (ht : 0.0 ≤ tolerance) : validateExport kind e p tolerance = .ok e :=
  (validateExport_eq_ok_iff ht).mpr fun z _ => agrees_native hs he p ht z

end

/-- **The native module is always accepted.**  Whatever the elementary functions return, a pass over
a fractal whose kernel takes arguments settles on the kernel of the native module, and says nothing
about the choice: with every cap, constant and power, and with all options that a session can work
with, the module has the kernel, the kernel takes the fractal's arguments, and the check does not
refuse it.  It answers to the names of these fractals and to no others, and these are the names that
it lists. -/
theorem native_accepted [Elementary Float] :
    (∀ (kind : Kind) (p : KernelParams Float) (o : Options Float),
      kind.signature?.isSome = true → o.validate = .ok o →
      ∃ e, NativeModule.export? kind.exportName = some e ∧ kind.signature? = some e.signature ∧
        validateExport kind e p o.validationTolerance = .ok e ∧
        resolveKernel kind (.loaded (nativeModule Float)) o p = (⟨kind, .compiled "native" e⟩, [])) ∧
    ∀ name : String,
      ((NativeModule.export? name : Option (Export Float)).isSome = true ↔
        ∃ kind : Kind, kind.signature?.isSome = true ∧ kind.exportName = name) ∧
      ((NativeModule.export? name : Option (Export Float)).isSome = true ↔
        name ∈ NativeModule.exportNames) := by
  refine ⟨fun kind p o hs ho => ?_, fun name => ?_⟩
  · obtain ⟨e, he, signature, -⟩ := NativeModule.exists_export (α := Float) hs
    have valid := validateExport_native hs he p (Options.zero_le_validationTolerance ho)
    have compiled : compiledExport kind (nativeModule Float) o p = .ok e :=
      compiledExport_eq_ok.mpr ⟨he, signature, fun _ => isOk_validateExport.mpr valid⟩
    refine ⟨e, he, signature, valid, ?_⟩
    rw [resolveKernel, signature, if_neg (by simp), compiled]
    rfl
  · exact ⟨NativeModule.isSome_export?.trans NativeModule.mem_exportNames,
      NativeModule.isSome_export?⟩

/-- The second magnet map, which only the module has, with no number as its constant and power and
with no tolerance at all: the module's kernel is used.  A Koch curve has none. -/
theorem native_accepted_magnet2 :
    let p : KernelParams Float := ⟨64, ⟨0.0 / 0.0, 1.0 / 0.0⟩, 0.0 / 0.0⟩
    let o : Options Float := ⟨8, 25000, .coalesce, true, 0.0⟩
    o.validate = .ok o ∧
      (∃ e : Export Float, NativeModule.export? "magnet2" = some e ∧
        validateExport .magnet2 e p 0.0 = .ok e ∧
        (resolveKernel .magnet2 (.loaded (nativeModule Float)) o p).1.source =
          .compiled "native" e) ∧
      (NativeModule.export? "koch" : Option (Export Float)).isSome = false := by
  have ho : (⟨8, 25000, .coalesce, true, 0.0⟩ : Options Float).validate =
      .ok ⟨8, 25000, .coalesce, true, 0.0⟩ := rfl
  intro p o
  obtain ⟨resolved, names⟩ := native_accepted
  obtain ⟨e, he, -, valid, hr⟩ := resolved .magnet2 p o rfl ho
  refine ⟨ho, ⟨e, he, valid, by rw [hr]⟩, ?_⟩
  rw [Bool.eq_false_iff]
  intro h
  exact absurd ((names "koch").2.mp h) (by decide)

end FractalRender
