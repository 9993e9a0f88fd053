import FractalRender.Proofs.Backend.Resolution
import FractalRender.Proofs.Kernel.Orbits
import FractalRender.Proofs.Scalar.Order

/-!
# The check of an export — agreement on the sample points

The check looks at the values of an export at the sample points, one after the other.  It stops at a
value that no kernel may return, and keeps the largest difference from the library's own kernel
until then.  So what it finds does not depend on the order of the points: a value out of range
anywhere, or else the largest of all differences.

* `foldlM_worsen_eq_none`: when the check stops.
* `Worst`, `worst_foldlM`: what it has kept at the end if it does not.
* `validateExport_eq_ok_iff`: an export passes when it agrees with the library's own kernel at each
  sample point (`Agrees`).
* `validateExport_agreement`: that, and the error of an export that does not pass.
-/

namespace FractalRender

open Binary64

/-! ### One sample -/

section

variable {α : Type} [Scalar α] [Elementary α] {kind : Kind} {e : Export α} {p : KernelParams α}

/-- How far an export is from the library's own kernel at a point, if there is such a kernel. -/
def difference? (kind : Kind) (e : Export α) (p : KernelParams α) (z : Complex α) : Option α :=
  (Kernel.interpreted? kind p z).map fun expected => Scalar.abs (e.call p z - expected)

theorem worsen_of_isInRange {z : Complex α} (h : isInRange (e.call p z) p.maxIterations = true)
    (worst : α) :
    worsen kind e p worst z = some ((difference? kind e p z).elim worst (Scalar.larger worst)) := by
  rw [worsen, if_pos h, difference?]
  cases Kernel.interpreted? kind p z <;> rfl

/-- **The check stops** exactly when a value is out of range, whatever it has found before and
wherever the value is. -/
theorem foldlM_worsen_eq_none {zs : List (Complex α)} {worst : α} :
    zs.foldlM (worsen kind e p) worst = none ↔
      ∃ z ∈ zs, isInRange (e.call p z) p.maxIterations = false := by
  induction zs generalizing worst with
  | nil => exact iff_of_false nofun nofun
  | cons z zs ih =>
      rw [List.foldlM_cons, List.exists_mem_cons_iff]
      cases h : isInRange (e.call p z) p.maxIterations with
      | false =>
          rw [worsen, h]
          exact iff_of_true rfl (.inl rfl)
      | true =>
          rw [worsen_of_isInRange h]
          exact ih.trans (or_iff_right (fun h => by cases h)).symm

omit [Elementary α] in
/-- There is a sample point for each pixel of the grid. -/
theorem length_samplePoints (kind : Kind) (p : KernelParams α) :
    (samplePoints kind p).length = 25 := by
  simp [samplePoints, sampleGrid]

end

section

variable [Elementary Float] {kind : Kind} {e : Export Float} {p : KernelParams Float}

/-- The value of an export at a point is one that a kernel may return: a number from 0 to the
cap. -/
structure InRange (e : Export Float) (p : KernelParams Float) (z : Complex Float) : Prop where
  number : (e.call p z).isNaN = false
  lower : 0.0 ≤ e.call p z
  upper : e.call p z ≤ ofNat p.maxIterations.toNat

/-- The value of an export at a point is in range and, if the library has a kernel of its own, near
the value of that one. -/
structure Agrees (kind : Kind) (e : Export Float) (p : KernelParams Float) (tolerance : Float)
    (z : Complex Float) : Prop extends InRange e p z where
  near : ∀ d, difference? kind e p z = some d → d ≤ tolerance

omit [Elementary Float] in
theorem isInRange_iff {z : Complex Float} :
    isInRange (e.call p z) p.maxIterations = true ↔ InRange e p z := by
  rw [isInRange, Bool.and_eq_true, decide_eq_true_iff, decide_eq_true_iff]
  exact ⟨fun ⟨lower, upper⟩ => ⟨(le_iff_rank.mp upper).1, lower, upper⟩,
    fun h => ⟨h.lower, h.upper⟩⟩

/-- Where a value is in range, its difference is a number. -/
theorem isNaN_difference {z : Complex Float} (hz : InRange e p z) {d : Float}
    (hd : difference? kind e p z = some d) : d.isNaN = false := by
  have fits {n : Nat} (hn : n ≤ p.maxIterations.toNat) : (ofNat n).isFinite = true :=
    isFinite_ofNat (hn.trans_lt (p.maxIterations.toNat_lt.trans (by decide)))
  obtain ⟨v, hv, rfl⟩ := Option.map_eq_some_iff.mp hd
  obtain ⟨o, -, rfl⟩ := exists_orbit hv
  exact isNaN_abs
    (isNaN_sub (isFinite_of_le hz.lower hz.upper (fits le_rfl)) (fits (stopIndex_le _ _ _)))

/-! ### All samples -/

/-- The number is what there was to begin with or the difference at one of the points, and none of
these is larger. -/
structure Worst (kind : Kind) (e : Export Float) (p : KernelParams Float)
    (zs : List (Complex Float)) (first worst : Float) : Prop where
  number : worst.isNaN = false
  first_le : first ≤ worst
  difference_le : ∀ z ∈ zs, ∀ d, difference? kind e p z = some d → d ≤ worst
  attained : worst = first ∨ ∃ z ∈ zs, difference? kind e p z = some worst

/-- One more point in front. -/
theorem Worst.cons {zs : List (Complex Float)} {first second worst : Float} {z : Complex Float}
    (h : Worst kind e p zs second worst) (first_le : first ≤ second)
    (difference_le : ∀ d, difference? kind e p z = some d → d ≤ second)
    (attained : second = first ∨ difference? kind e p z = some second) :
    Worst kind e p (z :: zs) first worst where
  number := h.number
  first_le := Binary64.le_trans first_le h.first_le
  difference_le := by
    rw [List.forall_mem_cons]
    exact ⟨fun d hd => Binary64.le_trans (difference_le d hd) h.first_le, h.difference_le⟩
  attained := by
    rw [List.exists_mem_cons_iff]
    rcases h.attained with rfl | later
    · exact attained.imp_right .inl
    · exact .inr (.inr later)

/-- **The largest difference is kept**, if all values are in range. -/
theorem worst_foldlM {zs : List (Complex Float)} (hz : ∀ z ∈ zs, InRange e p z) {first : Float}
    (hfirst : first.isNaN = false) :
    ∃ worst, zs.foldlM (worsen kind e p) first = some worst ∧ Worst kind e p zs first worst := by
  induction zs generalizing first with
  | nil => exact ⟨first, rfl, hfirst, Binary64.le_refl hfirst, nofun, .inl rfl⟩
  | cons z zs ih =>
      obtain ⟨hhead, htail⟩ := List.forall_mem_cons.mp hz
      rw [List.foldlM_cons, worsen_of_isInRange (isInRange_iff.mpr hhead)]
      cases hd : difference? kind e p z with
      | none =>
          obtain ⟨worst, hfold, h⟩ := ih htail hfirst
          refine ⟨worst, hfold, h.cons (Binary64.le_refl hfirst) ?_ (.inl rfl)⟩
          intro d hd'
          cases hd.symm.trans hd'
      | some d =>
          obtain ⟨number, left, right, either⟩ :=
            larger_spec hfirst (isNaN_difference hhead hd)
          obtain ⟨worst, hfold, h⟩ := ih htail number
          refine ⟨worst, hfold, h.cons left ?_ ?_⟩
          · intro d' hd'
            cases hd.symm.trans hd'
            exact right
          · exact either.imp_right fun larger => by rw [larger, hd]

/-! ### The check -/

/-- The error of a value out of range is no number. -/
theorem validateExport_of_not_inRange {z : Complex Float} (hz : z ∈ samplePoints kind p)
    (h : ¬ InRange e p z) (tolerance : Float) :
    validateExport kind e p tolerance = .error (.validationFailed kind (0.0 / 0.0)) := by
  have stops : (samplePoints kind p).foldlM (worsen kind e p) 0.0 = none :=
    foldlM_worsen_eq_none.mpr ⟨z, hz, Bool.eq_false_iff.mpr fun hr => h (isInRange_iff.mp hr)⟩
  rw [validateExport, stops]

/-- If all values are in range, the tolerance is compared with the largest difference. -/
theorem validateExport_of_inRange (h : ∀ z ∈ samplePoints kind p, InRange e p z)
    (tolerance : Float) :
    ∃ worst, Worst kind e p (samplePoints kind p) 0.0 worst ∧
      validateExport kind e p tolerance =
        if tolerance < worst then .error (.validationFailed kind worst) else .ok e := by
  have zero : (0.0 : Float).isNaN = false := rfl
  obtain ⟨worst, hfold, hworst⟩ := worst_foldlM h zero
  exact ⟨worst, hworst, by rw [validateExport, hfold]⟩

/-- **An export passes the check** when it agrees at each sample point with the library's own
kernel. -/
theorem validateExport_eq_ok_iff {tolerance : Float} (ht : 0.0 ≤ tolerance) :
    validateExport kind e p tolerance = .ok e ↔
      ∀ z ∈ samplePoints kind p, Agrees kind e p tolerance z := by
  constructor
  · intro passes
    have inRange : ∀ z ∈ samplePoints kind p, InRange e p z := by
      intro z hz
      by_contra h
      cases (validateExport_of_not_inRange hz h tolerance).symm.trans passes
    obtain ⟨worst, hworst, result⟩ := validateExport_of_inRange inRange tolerance
    have small : ¬ tolerance < worst := by
      intro h
      rw [passes, if_pos h] at result
      cases result
    have hle := Binary64.le_of_not_lt (le_iff_rank.mp ht).2.1 hworst.number small
    exact fun z hz =>
      ⟨inRange z hz, fun d hd => Binary64.le_trans (hworst.difference_le z hz d hd) hle⟩
  · intro agrees
    obtain ⟨worst, hworst, result⟩ :=
      validateExport_of_inRange (fun z hz => (agrees z hz).toInRange) tolerance
    have hle : worst ≤ tolerance := by
      rcases hworst.attained with rfl | ⟨z, hz, hd⟩
      · exact ht
      · exact (agrees z hz).near _ hd
    rw [result, if_neg (Binary64.not_lt_of_le hle)]

omit [Elementary Float] in
/-- Options that a session can work with have a tolerance from zero on. -/
theorem Options.zero_le_validationTolerance {o : Options Float} (ho : o.validate = .ok o) :
    0.0 ≤ o.validationTolerance := by
  rw [validate] at ho
  split at ho
  · cases ho
  · split at ho
    · cases ho
    · split at ho
      · next h => exact of_decide_eq_true (Bool.and_eq_true_iff.mp h).2
      · cases ho

/-- **The check decides whether an export agrees with the library's own kernel**, with each tolerance
of options that a session can work with: it passes exactly when it agrees at each of the 25 sample
points.  If it does not pass, its error is no number when any of the values is out of range, however
large the differences elsewhere are, and else the largest of the differences. -/
theorem validateExport_agreement {o : Options Float} (ho : o.validate = .ok o) (kind : Kind)
    (e : Export Float) (p : KernelParams Float) :
    (samplePoints kind p).length = 25 ∧
    (validateExport kind e p o.validationTolerance = .ok e ↔
      ∀ z ∈ samplePoints kind p, Agrees kind e p o.validationTolerance z) ∧
    ((∃ z ∈ samplePoints kind p, ¬ InRange e p z) → ∃ error : Float, error.isNaN = true ∧
      validateExport kind e p o.validationTolerance = .error (.validationFailed kind error)) ∧
    ((∀ z ∈ samplePoints kind p, InRange e p z) →
      validateExport kind e p o.validationTolerance ≠ .ok e → ∃ error,
        validateExport kind e p o.validationTolerance = .error (.validationFailed kind error) ∧
        (∃ z ∈ samplePoints kind p, difference? kind e p z = some error) ∧
        ∀ z ∈ samplePoints kind p, ∀ d, difference? kind e p z = some d → d ≤ error) := by
  have ht := Options.zero_le_validationTolerance ho
  refine ⟨length_samplePoints kind p, validateExport_eq_ok_iff ht, ?_, ?_⟩
  · rintro ⟨z, hz, h⟩
    exact ⟨0.0 / 0.0, by decide +kernel, validateExport_of_not_inRange hz h _⟩
  · intro inRange fails
    obtain ⟨worst, hworst, result⟩ := validateExport_of_inRange inRange o.validationTolerance
    by_cases large : o.validationTolerance < worst
    · rw [if_pos large] at result
      -- what there was to begin with is not above the tolerance
      have found : ∃ z ∈ samplePoints kind p, difference? kind e p z = some worst := by
        refine hworst.attained.resolve_left ?_
        rintro rfl
        exact Binary64.not_lt_of_le ht large
      exact ⟨worst, result, found, hworst.difference_le⟩
    · rw [if_neg large] at result
      exact absurd result fails

end

/-- A kernel that counts half a step everywhere is refused by that half, and one that returns no
number by no number. -/
theorem validateExport_agreement_celtic :
    let p : KernelParams Float := ⟨1, ⟨0.0, 0.0⟩, 2.0⟩
    (Options.standard : Options Float).validate = .ok .standard ∧
      validateExport .celtic (.escape fun _ _ => 0.5) p 1e-9 =
        .error (.validationFailed .celtic 0.5) ∧
      ∃ error : Float, error.isNaN = true ∧
        validateExport .celtic (.escape fun _ _ => 0.0 / 0.0) p 1e-9 =
          .error (.validationFailed .celtic error) := by
  intro p
  have ho : (Options.standard : Options Float).validate = .ok .standard := rfl
  -- the library's own kernel counts at most one step
  have half (z : Complex Float) :
      difference? .celtic (.escape fun _ _ => (0.5 : Float)) p z = some 0.5 := by
    obtain ⟨v, hv⟩ : ∃ v, Kernel.interpreted? .celtic p z = some v := ⟨_, rfl⟩
    obtain ⟨o, -, rfl⟩ := exists_orbit hv
    have few : stopIndex o.advance 1 o.start ≤ 1 := stopIndex_le o.advance 1 o.start
    have distance : ∀ n ≤ 1, ((0.5 : Float) - ofNat n).abs = 0.5 := by decide +kernel
    rw [difference?, hv]
    exact congrArg some (distance _ few)
  have inRange (z : Complex Float) : InRange (.escape fun _ _ => (0.5 : Float)) p z :=
    isInRange_iff.mp (show isInRange (0.5 : Float) 1 = true by decide +kernel)
  obtain ⟨size, passes, -, largest⟩ :=
    validateExport_agreement ho .celtic (.escape fun _ _ => 0.5) p
  obtain ⟨-, -, noNumber, -⟩ :=
    validateExport_agreement ho .celtic (.escape fun _ _ => 0.0 / 0.0) p
  obtain ⟨z, hz⟩ : ∃ z, z ∈ samplePoints .celtic p :=
    List.exists_mem_of_length_pos (by rw [size]; decide)
  refine ⟨ho, ?_, noNumber ⟨z, hz, fun h => ?_⟩⟩
  · have refused : validateExport .celtic (.escape fun _ _ => (0.5 : Float)) p 1e-9 ≠ .ok _ :=
      fun h => absurd ((passes.mp h z hz).near _ (half z)) (by decide +kernel)
    obtain ⟨error, result, ⟨z, -, hd⟩, -⟩ := largest (fun z _ => inRange z) refused
    cases (half z).symm.trans hd
    exact result
  · exact absurd h.number (show (0.0 / 0.0 : Float).isNaN ≠ false by decide +kernel)

end FractalRender
