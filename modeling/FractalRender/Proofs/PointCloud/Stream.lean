import FractalRender.Proofs.PointCloud.Batches
import FractalRender.Proofs.PointCloud.Period
import FractalRender.Proofs.Scalar.Scaling

/-!
# Point clouds — the stream of random words

A run of a sampler draws one word for every point that it comes to, in the burn-in and after it.
`Along system cap k s` says that the run of a system at an iteration cap comes to the sampler `s`
with its draw `k`: each draw leaves one point of the burn-in behind, or counts one more point as long
as there are any to plot.  So the generator is that of the seed after `k` steps.

* `next_ne_zero`, `share_bounds`: the state never becomes 0, and the share of a state that is not 0
  lies between 0 and 1.
* `Along.random`: the generator along a run.
* `Along.advance`, `Along.drain`: batches and collecting go along the run.
* `full_period`: these together, with the period of the generator.
-/

namespace FractalRender

/-! ### States and shares -/

namespace Xorshift

/-- A seed of 0 is replaced, so no generator starts there. -/
theorem state_ofSeed_ne_zero (seed : UInt32) : (ofSeed seed).state ≠ 0 := by
  rw [ofSeed]
  split
  · decide
  · next h => exact h

theorem next_injective : Function.Injective next := fun _ _ h =>
  congrArg mk (bijective_scramble.injective (congrArg state h))

/-- **The state never becomes 0.** -/
theorem next_ne_zero {g : Xorshift} (hg : g.state ≠ 0) : g.next.state ≠ 0 := fun h =>
  hg (bijective_scramble.injective h)

theorem state_iterate_next (g : Xorshift) (k : Nat) :
    (next^[k] g).state = scramble^[k] g.state := by
  induction k with
  | zero => rfl
  | succ k ih =>
      rw [Function.iterate_succ_apply', Function.iterate_succ_apply', ← ih]
      rfl

/-- **No state comes back early.**  Generators that are fewer than `2 ^ 32 - 1` draws apart are in
different states. -/
theorem iterate_next_ne {g : Xorshift} (hg : g.state ≠ 0) {j k : Nat} (lt : j < k)
    (near : k - j < 2 ^ 32 - 1) : next^[j] g ≠ next^[k] g := by
  intro same
  have states : scramble^[k] g.state = scramble^[j] g.state := by
    rw [← state_iterate_next, ← same, state_iterate_next]
  exact iterate_scramble_ne hg (Nat.sub_pos_of_lt lt) near
    (Function.iterate_cancel bijective_scramble.injective states)

open Binary64 in
/-- **A share lies between 0 and 1**: it is the state divided by `2 ^ 32`, exactly. -/
theorem share_bounds {g : Xorshift} (hg : g.state ≠ 0) :
    0.0 < (g.share : Float) ∧ (g.share : Float) < 1.0 := by
  have hpos : 0 < g.state.toNat := Nat.pos_of_ne_zero fun h => hg (UInt32.toNat_inj.mp h)
  have hlog : g.state.toNat.log2 < 32 := (Nat.log2_lt hpos.ne').mpr g.state.toNat_lt
  have bits : (g.state.toNat <<< (52 - g.state.toNat.log2)).log2 = 52 := by
    rw [log2_shiftLeft hpos.ne']
    omega
  have word : (4294967296.0 : Float).toModel.unpack =
      .finite .positive (2 ^ 52) (-20) (by decide) := rfl
  have share := unpack_div_two_pow (unpack_ofNat hpos (g.state.toNat_lt.trans (by decide))) bits word
    (by omega) (by omega)
  have normal : IsNormal (g.share : Float) ((g.state.toNat.log2 : Int) - 52 - -20 - 52) :=
    ⟨_, _, share, bits⟩
  exact ⟨normal.pos.2, normal.lt_one (by omega)⟩

end Xorshift

/-! ### Runs -/

namespace PointCloud.Sampler

variable {α : Type} [Scalar α]

/-- The run of a system at an iteration cap comes to the sampler with the given draw. -/
inductive Along (system : Attractor) (cap : UInt32) : Nat → Sampler α → Prop where
  | new : Along system cap 0 (.new system cap)
  /-- A point of the burn-in. -/
  | skip {k : Nat} {s : Sampler α} (h : Along system cap k s) (left : s.burnInLeft ≠ 0) :
      Along system cap (k + 1) { s.walk with burnInLeft := s.burnInLeft - 1 }
  /-- A point that is counted. -/
  | emit {k : Nat} {s : Sampler α} (h : Along system cap k s) (burned : s.burnInLeft = 0)
      (left : s.emitted < s.target) :
      Along system cap (k + 1) { s.walk with emitted := s.emitted + 1 }

/-- Points are skipped whatever is said about how many of them are left. -/
theorem skip_setBurnIn (n b : Nat) (s : Sampler α) :
    skip n { s with burnInLeft := b } = { skip n s with burnInLeft := b } := by
  induction n generalizing s with
  | zero => rfl
  | succ n ih => exact ih s.walk

namespace Along

variable {system : Attractor} {cap : UInt32} {k : Nat} {s : Sampler α}

/-- **The generator along a run** is that of the seed, as many steps on as there were draws. -/
theorem random (h : Along system cap k s) :
    s.random = Xorshift.next^[k] (.ofSeed (system.seed cap)) := by
  induction h with
  | new => rfl
  | skip h left ih | emit h burned left ih =>
      rw [Function.iterate_succ_apply', ← ih]
      rfl

theorem state_ne_zero (h : Along system cap k s) : s.random.state ≠ 0 := by
  induction h with
  | new => exact Xorshift.state_ofSeed_ne_zero _
  | skip h left ih | emit h burned left ih => exact Xorshift.next_ne_zero ih

/-- Leaving the burn-in behind goes along the run. -/
theorem burnedIn (h : Along system cap k s) :
    Along system cap (k + s.burnInLeft) s.burnedIn := by
  induction hn : s.burnInLeft generalizing k s with
  | zero =>
      rw [burnedIn_eq_self hn]
      exact h
  | succ n ih =>
      have next := ih (h.skip (by omega)) (by simp [hn])
      have same : Sampler.burnedIn { s.walk with burnInLeft := s.burnInLeft - 1 } = s.burnedIn := by
        rw [Sampler.burnedIn, Sampler.burnedIn, hn]
        show { Sampler.skip n { s.walk with burnInLeft := n } with burnInLeft := 0 } = _
        rw [skip_setBurnIn]
        rfl
      rw [same, Nat.add_right_comm] at next
      exact next

/-- Collecting points goes along the run, and so does plotting them. -/
theorem collect (h : Along system cap k s) (burned : s.burnInLeft = 0) {n : Nat}
    (hn : n ≤ s.target - s.emitted) (ps : Array (Complex α)) :
    Along system cap (k + n) (Sampler.collect n s ps).1 := by
  induction n generalizing k s ps with
  | zero => exact h
  | succ n ih =>
      have left : n ≤ s.target - (s.emitted + 1) := by omega
      have next := ih (h.emit burned (by omega)) burned left (ps.push s.walk.position)
      rw [Nat.add_right_comm] at next
      exact next

theorem plot (h : Along system cap k s) (burned : s.burnInLeft = 0) {n : Nat}
    (hn : n ≤ s.target - s.emitted) (v : Viewport α) (b : PixelBuffer) :
    Along system cap (k + n) (Sampler.plot v n s b).1 := by
  have same := congrArg Prod.fst (plot_eq_collect v n s b #[])
  rw [show Sampler.plot v n s b = Sampler.plot v n s (Array.foldl _ b #[]) from rfl, same]
  exact h.collect burned hn #[]

/-- **A batch goes along the run.** -/
theorem advance (h : Along system cap k s) (batch : UInt32) (v : Viewport α) (b : PixelBuffer) :
    Along system cap (k + s.burnInLeft + s.batchCount batch) (s.advance batch v b).sampler := by
  obtain ⟨emitted, target⟩ := s.counts_burnedIn
  have fits : s.batchCount batch ≤ s.burnedIn.target - s.burnedIn.emitted := by
    rw [emitted, target]
    exact Nat.min_le_right _ _
  have plotted : (s.advance batch v b).sampler =
      (Sampler.plot v (s.batchCount batch) s.burnedIn b).1 :=
    congrArg Prod.fst (s.advance_eq_plot batch v b)
  rw [plotted]
  exact h.burnedIn.plot rfl fits v b

/-- **So does collecting all points that are left.** -/
theorem drain (h : Along system cap k s) :
    Along system cap (k + s.burnInLeft + (s.target - s.emitted)) s.drain.1 := by
  obtain ⟨emitted, target⟩ := s.counts_burnedIn
  have all := h.burnedIn.collect rfl le_rfl #[]
  rw [emitted, target] at all
  rw [Sampler.drain, emitted, target]
  exact all

end Along

/-- **The random generator has full period.**  Its step is a bijection of the states that only leaves
0 as it is, and every other state comes back for the first time after `2 ^ 32 - 1` steps.  So no run
of a sampler ever comes to the state 0, every share that it draws lies strictly between 0 and 1, and
its states fewer than `2 ^ 32 - 1` draws apart differ.  Batches of any size, and collecting all points
that are left, go along the run, with one draw for every point of the burn-in that is left and for
every point plotted or collected. -/
theorem full_period :
    (Function.Bijective Xorshift.scramble ∧ (∀ s, Xorshift.scramble s = s ↔ s = 0) ∧
      ∀ s, s ≠ 0 → Xorshift.scramble^[2 ^ 32 - 1] s = s ∧
        ∀ n, 0 < n → n < 2 ^ 32 - 1 → Xorshift.scramble^[n] s ≠ s) ∧
    ∀ (system : Attractor) (cap : UInt32),
      (∀ (k : Nat) (s : Sampler Float), Along system cap k s →
        s.random.state ≠ 0 ∧
        0.0 < (s.random.next.share : Float) ∧ (s.random.next.share : Float) < 1.0) ∧
      (∀ (j k : Nat) (s t : Sampler Float), Along system cap j s → Along system cap k t → j < k →
        k - j < 2 ^ 32 - 1 → s.random.state ≠ t.random.state) ∧
      ∀ (k : Nat) (s : Sampler Float), Along system cap k s →
        (∀ batch v b, Along system cap (k + s.burnInLeft + s.batchCount batch)
          (s.advance batch v b).sampler) ∧
        Along system cap (k + s.burnInLeft + (s.target - s.emitted)) s.drain.1 := by
  refine ⟨⟨Xorshift.bijective_scramble, fun s => Xorshift.scramble_eq_self, fun s hs =>
    ⟨Xorshift.isPeriodicPt_scramble s, fun n => Xorshift.iterate_scramble_ne hs⟩⟩,
    fun system cap => ⟨?_, ?_, ?_⟩⟩
  · intro k s h
    exact ⟨h.state_ne_zero, Xorshift.share_bounds (Xorshift.next_ne_zero h.state_ne_zero)⟩
  · intro j k s t hs ht lt near same
    have start := Xorshift.state_ofSeed_ne_zero (system.seed cap)
    refine Xorshift.iterate_next_ne start lt near ?_
    rw [← hs.random, ← ht.random]
    exact congrArg Xorshift.mk same
  · intro k s h
    exact ⟨h.advance, h.drain⟩

/-- The 40 points of the burn-in and 7 more: the generator is not where it started, and the next
share lies below 1. -/
theorem full_period_sierpinski :
    let v : Viewport Float := ⟨⟨0.5, 0.35⟩, 0.5⟩
    let s := ((Sampler.new .sierpinski 10).advance 7 v (.blank ⟨2, 2⟩)).sampler
    Along .sierpinski 10 47 s ∧ (s.random.next.share : Float) < 1.0 ∧
      (Sampler.new .sierpinski 10 : Sampler Float).random.state ≠ s.random.state := by
  intro v s
  obtain ⟨inside, apart, calls⟩ := full_period.2 .sierpinski 10
  have start : Along .sierpinski 10 0 (.new .sierpinski 10 : Sampler Float) := .new
  have draws : 0 + 40 + (Sampler.new .sierpinski 10 : Sampler Float).batchCount 7 = 47 := by
    simp [batchCount, Sampler.new, pointTarget]
  have here : Along .sierpinski 10 47 s := draws ▸ (calls 0 _ start).1 7 v (.blank ⟨2, 2⟩)
  exact ⟨here, (inside 47 s here).2.2, apart 0 47 _ s start here (by decide) (by decide)⟩

end PointCloud.Sampler

end FractalRender
