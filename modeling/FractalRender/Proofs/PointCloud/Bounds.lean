import Mathlib
import FractalRender.Proofs.PointCloud.Stream
import FractalRender.Proofs.Scalar.Exact

/-!
# Point clouds — where an orbit stays

In exact arithmetic each system has a rectangle (`Attractor.box`) that all of its maps send into
itself, so an orbit that starts in it never leaves it, whichever maps the shares choose.  That of
the triangle is the rectangle around it.  The one around the fern does not do: the maps of its two
lower leaves turn height into width, and the sides have to be far enough out for that.

* `step_mem_box`: every map of a system keeps its rectangle.
* `orbit_mem_box`: so does every orbit.
* `Along.position_eq`: the points of a run are the orbit of the shares that it draws.
* `orbits_bounded`: these together, with the points that are collected.
-/

namespace FractalRender.PointCloud

/-- A rectangle of the plane, by its edges. -/
structure Box where
  left : ℚ
  right : ℚ
  bottom : ℚ
  top : ℚ

instance : Membership (Complex ℚ) Box where
  mem b z := (b.left ≤ z.re ∧ z.re ≤ b.right) ∧ b.bottom ≤ z.im ∧ z.im ≤ b.top

namespace Attractor

/-- The point to which shares lead from the origin, one after the other. -/
def orbit {α : Type} [Scalar α] (s : Attractor) (shares : List α) : Complex α :=
  shares.foldl s.step .zero

/-- A rectangle in which the orbits of a system stay. -/
def box : Attractor → Box
  | barnsley => ⟨-4, 4, -1, 12⟩
  | sierpinski => ⟨0, 1, 0, 2 * 0.43301270189⟩

theorem zero_mem_box (s : Attractor) : (.zero : Complex ℚ) ∈ s.box := by
  cases s with
  | barnsley | sierpinski =>
      refine ⟨⟨?_, ?_⟩, ?_, ?_⟩ <;> norm_num [box, Complex.zero]

/-- **Every map of a system keeps its rectangle.** -/
theorem step_mem_box {s : Attractor} {z : Complex ℚ} (h : z ∈ s.box) (r : ℚ) :
    s.step z r ∈ s.box := by
  obtain ⟨⟨left, right⟩, bottom, top⟩ := h
  cases s with
  | barnsley | sierpinski =>
      simp only [box] at left right bottom top
      -- one case for each map, and in it one inequality for each edge
      simp only [step]
      split_ifs
      all_goals
        refine ⟨⟨?_, ?_⟩, ?_, ?_⟩ <;> norm_num [box] <;> linarith

/-- **Orbits stay in the rectangle of their system**, whatever the shares are. -/
theorem orbit_mem_box (s : Attractor) (shares : List ℚ) : s.orbit shares ∈ s.box := by
  induction shares using List.reverseRecOn with
  | nil => exact s.zero_mem_box
  | append_singleton shares r ih =>
      rw [orbit, List.foldl_concat]
      exact step_mem_box ih r

end Attractor

/-! ### Runs -/

namespace Sampler

variable {α : Type} [Scalar α] {system : Attractor} {cap : UInt32} {k : Nat} {s : Sampler α}

/-- As many points are collected as are left. -/
theorem size_drain (s : Sampler α) : s.drain.2.size = s.target - s.emitted := by
  have size (n : Nat) (t : Sampler α) (ps : Array (Complex α)) :
      (collect n t ps).2.size = ps.size + n := by
    induction n generalizing t ps with
    | zero => rfl
    | succ n ih => rw [collect, ih, Array.size_push, Nat.add_right_comm, Nat.add_assoc]
  obtain ⟨emitted, target⟩ := s.counts_burnedIn
  rw [drain, emitted, target, size]
  exact Nat.zero_add _

/-- The shares that a run draws before it comes to the sampler with draw `k`. -/
def shares (α : Type) [Scalar α] (system : Attractor) (cap : UInt32) (k : Nat) : List α :=
  (List.range k).map fun i => (Xorshift.next^[i + 1] (.ofSeed (system.seed cap))).share

namespace Along

theorem system_eq (h : Along system cap k s) : s.system = system := by
  induction h with
  | new => rfl
  | skip h left ih | emit h burned left ih => exact ih

/-- **A run follows the orbit of the shares that it draws.** -/
theorem position_eq (h : Along system cap k s) :
    s.position = system.orbit (shares α system cap k) := by
  induction h with
  | new => rfl
  | @skip k s h left ih | @emit k s h burned left ih =>
      have drawn : s.random.next = Xorshift.next^[k + 1] (.ofSeed (system.seed cap)) := by
        rw [Function.iterate_succ_apply', ← h.random]
      show s.system.step s.position s.random.next.share = _
      rw [shares, List.range_succ, List.map_append, Attractor.orbit, List.foldl_append, h.system_eq,
        drawn, ih]
      rfl

/-- Every point that is collected is one to which the run comes. -/
theorem exists_of_mem_collect (h : Along system cap k s) (burned : s.burnInLeft = 0) {n : Nat}
    (hn : n ≤ s.target - s.emitted) {ps : Array (Complex α)} {z : Complex α}
    (hz : z ∈ (Sampler.collect n s ps).2) :
    z ∈ ps ∨ ∃ j t, Along system cap j t ∧ t.position = z := by
  induction n generalizing k s ps with
  | zero => exact .inl hz
  | succ n ih =>
      have next := h.emit burned (by omega)
      rcases ih next burned (show n ≤ s.target - (s.emitted + 1) by omega) hz with hz | found
      · rcases Array.mem_push.mp hz with hz | rfl
        · exact .inl hz
        · exact .inr ⟨k + 1, _, next, rfl⟩
      · exact .inr found

end Along

/-- **The orbits are bounded.**  In exact arithmetic the points to which any shares lead from the
origin, however many there are and whichever maps they choose, lie in the rectangle of the system:
for the triangle the one from 0 to 1 and from 0 to twice 0.43301270189, for the fern the one from -4
to 4 and from -1 to 12.  So do all points to which a run of a sampler comes, and all points that are
collected, however many of them the cap asks for. -/
theorem orbits_bounded (system : Attractor) :
    (∀ shares : List ℚ, system.orbit shares ∈ system.box) ∧
    ∀ cap : UInt32,
      (∀ (k : Nat) (s : Sampler ℚ), Along system cap k s → s.position ∈ system.box) ∧
      ∀ z ∈ (Sampler.new system cap : Sampler ℚ).drain.2, z ∈ system.box := by
  have inside (cap : UInt32) (k : Nat) (s : Sampler ℚ) (h : Along system cap k s) :
      s.position ∈ system.box := h.position_eq ▸ system.orbit_mem_box _
  refine ⟨system.orbit_mem_box, fun cap => ⟨inside cap, fun z hz => ?_⟩⟩
  have start : Along system cap 0 (.new system cap : Sampler ℚ) := .new
  rcases start.burnedIn.exists_of_mem_collect rfl le_rfl hz with hz | ⟨j, s, h, rfl⟩
  · exact absurd hz (Array.not_mem_empty z)
  · exact inside cap j s h

/-- Three shares that choose the stem of the fern, its top and its right leaf, and the first point
of a triangle that is collected. -/
theorem orbits_bounded_barnsley :
    Attractor.barnsley.orbit [0, 1 / 2, 99 / 100] ∈ (⟨-4, 4, -1, 12⟩ : Box) ∧
      Along .sierpinski 10 0 (.new .sierpinski 10 : Sampler ℚ) ∧
      (.zero : Complex ℚ) ∈ Attractor.sierpinski.box ∧
      ∃ z, (Sampler.new .sierpinski 10 : Sampler ℚ).drain.2[0]? = some z ∧
        z ∈ Attractor.sierpinski.box := by
  have start : Along .sierpinski 10 0 (.new .sierpinski 10 : Sampler ℚ) := .new
  obtain ⟨runs, collected⟩ := (orbits_bounded .sierpinski).2 10
  have plotted : 0 < (Sampler.new .sierpinski 10 : Sampler ℚ).drain.2.size := by
    simp [size_drain, new, pointTarget]
  exact ⟨(orbits_bounded .barnsley).1 _, start, runs 0 _ start, _,
    Array.getElem?_eq_getElem plotted, collected _ (Array.getElem_mem plotted)⟩

end Sampler

end FractalRender.PointCloud
