import Mathlib
import FractalRender.Proofs.Raster.Stroke
import FractalRender.Proofs.Scalar.Exact

/-!
# Raster — a stroke has no gaps

In exact arithmetic a segment is cut into at least as many parts as its longer side has units, so
from one sample to the next neither coordinate moves by more than one, and neither does the corner
of the brush.  A segment starts and ends exactly at its positions, so this holds across the joints
as well.  Squares of cells whose corners are neighbours hang together, and so does what a stroke
covers.

* `le_parts`: into how many parts a segment is cut.
* `isChain_segmentSamples`, `isChain_samples`: samples that follow each other are near each other.
* `connected_square`, `connected_squares`: cells that hang together.
* `unbroken`: the ends of the segments, the corners of the brush, and the cells of a stroke.
-/

namespace FractalRender.Stroke

/-! ### Parts of a segment -/

/-- A segment is cut into at least as many parts as its sides have units. -/
theorem le_parts {p q : Point ℚ} (hx : |q.x - p.x| ≤ 2 ^ 32 - 1) (hy : |q.y - p.y| ≤ 2 ^ 32 - 1) :
    |q.x - p.x| ≤ parts p q ∧ |q.y - p.y| ≤ parts p q := by
  have longer : max |q.x - p.x| |q.y - p.y| ≤ parts p q := by
    refine (Scalar.le_ceilWord_exact (max_le hx hy)).trans ?_
    rw [parts, Scalar.larger_exact]
    exact_mod_cast Nat.le_max_left _ _
  exact ⟨(le_max_left _ _).trans longer, (le_max_right _ _).trans longer⟩

theorem parts_pos (p q : Point ℚ) : 0 < parts p q :=
  Nat.lt_of_lt_of_le Nat.one_pos (Nat.le_max_right _ _)

/-! ### Samples that follow each other -/

theorem sample_zero (p q : Point ℚ) (n : Nat) : sample p q n 0 = p := by
  simp [sample, Scalar.ofNat]

theorem sample_self (p q : Point ℚ) {n : Nat} (hn : 0 < n) : sample p q n n = q := by
  have : (n : ℚ) ≠ 0 := by positivity
  simp [sample, Scalar.ofNat, this]

/-- The first and the last sample of a segment are its ends. -/
theorem ends_segmentSamples (p q : Point ℚ) :
    (segmentSamples p q).head? = some p ∧ (segmentSamples p q).getLast? = some q := by
  rw [segmentSamples]
  constructor
  · simp [List.head?_range, sample_zero]
  · simp [List.getLast?_range, sample_self p q (parts_pos p q)]

/-- The coordinates are at most one apart each. -/
def Near (p q : Point ℚ) : Prop := |p.x - q.x| ≤ 1 ∧ |p.y - q.y| ≤ 1

theorem near_self (p : Point ℚ) : Near p p := by
  simp [Near]

/-- One part of a way that has at most as many units as parts. -/
theorem abs_part_le_one {a b : ℚ} {n : Nat} (hn : 0 < n) (h : |b - a| ≤ n) (i : Nat) :
    |(a + (b - a) * (i / n)) - (a + (b - a) * ((i + 1 : Nat) / n))| ≤ 1 := by
  have part : (a + (b - a) * (i / n)) - (a + (b - a) * ((i + 1 : Nat) / n)) = -((b - a) / n) := by
    push_cast
    ring
  rw [part, abs_neg, abs_div, Nat.abs_cast]
  exact (div_le_one (by exact_mod_cast hn)).mpr h

theorem isChain_segmentSamples {p q : Point ℚ} (hx : |q.x - p.x| ≤ 2 ^ 32 - 1)
    (hy : |q.y - p.y| ≤ 2 ^ 32 - 1) : (segmentSamples p q).IsChain Near := by
  obtain ⟨fewer, lower⟩ := le_parts hx hy
  rw [segmentSamples, List.isChain_map]
  refine (List.isChain_range_succ _ _).mpr fun i _ => ?_
  exact ⟨abs_part_le_one (parts_pos p q) fewer i, abs_part_le_one (parts_pos p q) lower i⟩

/-- Every position is the end of its segment and the start of the next. -/
theorem isChain_zip_drop {α : Type} (ps : List α) :
    (ps.zip (ps.drop 1)).IsChain fun s t => s.2 = t.1 := by
  induction ps with
  | nil => simp
  | cons p ps ih =>
      cases ps with
      | nil => simp
      | cons q ps =>
          cases ps with
          | nil => simp
          | cons r ps => exact List.isChain_cons_cons.mpr ⟨rfl, ih⟩

/-- At a joint the last sample of one segment is the first of the next. -/
theorem near_joint {p q r s : Point ℚ} (joint : q = r) :
    ∀ x ∈ (segmentSamples p q).getLast?, ∀ y ∈ (segmentSamples r s).head?, Near x y := by
  intro x hx y hy
  rw [(ends_segmentSamples p q).2] at hx
  rw [(ends_segmentSamples r s).1] at hy
  rw [← Option.mem_some.mp hx, ← Option.mem_some.mp hy, joint]
  exact near_self r

/-- **Samples that follow each other** are near each other, within a segment and at the joints. -/
theorem isChain_samples {ps : List (Point ℚ)}
    (h : ps.IsChain fun p q => |q.x - p.x| ≤ 2 ^ 32 - 1 ∧ |q.y - p.y| ≤ 2 ^ 32 - 1) :
    (samples ps).IsChain Near := by
  match ps with
  | [p] => exact List.isChain_singleton p
  | [] => exact List.isChain_nil
  | p :: q :: ps =>
      let along := (p :: q :: ps).zip ((p :: q :: ps).drop 1)
      have nonempty : [] ∉ along.map fun s => segmentSamples s.1 s.2 := by
        intro hnil
        obtain ⟨s, -, hs⟩ := List.mem_map.mp hnil
        exact absurd (ends_segmentSamples s.1 s.2).1 (by simp [hs])
      show (along.flatMap fun s => segmentSamples s.1 s.2).IsChain Near
      rw [List.flatMap_def, List.isChain_flatten nonempty]
      constructor
      · intro l hl
        obtain ⟨⟨a, b⟩, hab, rfl⟩ := List.mem_map.mp hl
        have pair := List.IsChain.infix h (mem_zip_drop_iff.mp hab)
        obtain ⟨hx, hy⟩ := List.isChain_pair.mp pair
        exact isChain_segmentSamples hx hy
      · exact (List.isChain_map _).mpr ((isChain_zip_drop _).imp fun _ _ joint => near_joint joint)

/-! ### Corners of the brush -/

theorem floor_le_floor_add_one {a b : ℚ} (h : |a - b| ≤ 1) : ⌊a⌋ ≤ ⌊b⌋ + 1 := by
  rw [← Int.floor_add_one]
  exact Int.floor_le_floor (by linarith [(abs_le.mp h).2])

theorem abs_corner_sub_corner (brush : Nat) {a b : ℚ} (h : |a - b| ≤ 1) :
    |corner brush a - corner brush b| ≤ 1 := by
  have up := floor_le_floor_add_one h
  have down := floor_le_floor_add_one (abs_sub_comm a b ▸ h)
  simp only [corner, Scalar.floor_exact]
  rw [abs_le]
  omega

/-! ### Cells that hang together -/

/-- Different cells with a common edge or corner are neighbours. -/
def neighbours : SimpleGraph (Int × Int) where
  Adj z w := z ≠ w ∧ |z.1 - w.1| ≤ 1 ∧ |z.2 - w.2| ≤ 1
  symm := ⟨fun z w h => ⟨h.1.symm, abs_sub_comm z.1 w.1 ▸ h.2.1, abs_sub_comm z.2 w.2 ▸ h.2.2⟩⟩
  loopless := ⟨fun _ h => h.1 rfl⟩

/-- The cell of the brush's corner. -/
def cornerCell (brush : Nat) (p : Point ℚ) : Int × Int := (corner brush p.x, corner brush p.y)

theorem cornerCell_mem {brush : Nat} (hb : 0 < brush) (p : Point ℚ) :
    cornerCell brush p ∈ square brush p := by
  simp only [cornerCell, square, Set.mem_ofPred_eq]
  omega

/-- A cell of a square is reached from the corner in as many steps as it is away: diagonally, and
straight once a side of the square is met. -/
theorem reachable_corner {brush : Nat} (hb : 0 < brush) (p : Point ℚ) (n : Nat) {z : Int × Int}
    (hz : z ∈ square brush p) (hx : z.1 ≤ corner brush p.x + n) (hy : z.2 ≤ corner brush p.y + n) :
    (neighbours.induce (square brush p)).Reachable ⟨cornerCell brush p, cornerCell_mem hb p⟩
      ⟨z, hz⟩ := by
  obtain ⟨x, y⟩ := z
  have ⟨⟨left, right⟩, top, bottom⟩ := hz
  simp only at hx hy left right top bottom
  induction n generalizing x y with
  | zero =>
      obtain rfl : x = corner brush p.x := by omega
      obtain rfl : y = corner brush p.y := by omega
      exact .refl _
  | succ n ih =>
      by_cases here : x ≤ corner brush p.x + n ∧ y ≤ corner brush p.y + n
      · exact ih x y hz here.1 here.2 left right top bottom
      · -- the cell before it on the way
        let x' := max (corner brush p.x) (x - 1)
        let y' := max (corner brush p.y) (y - 1)
        have hz' : (x', y') ∈ square brush p := by
          simp only [square, Set.mem_ofPred_eq]
          omega
        have step : neighbours.Adj (x', y') (x, y) := by
          simp only [neighbours, ne_eq, Prod.mk.injEq, abs_le]
          omega
        have before := ih x' y' hz' (by omega) (by omega) (by omega) (by omega) (by omega)
          (by omega)
        have last : (neighbours.induce (square brush p)).Adj ⟨(x', y'), hz'⟩ ⟨(x, y), hz⟩ := step
        exact before.trans last.reachable

/-- **A square hangs together.** -/
theorem connected_square {brush : Nat} (hb : 0 < brush) (p : Point ℚ) :
    (neighbours.induce (square brush p)).Connected := by
  rw [SimpleGraph.connected_iff_exists_forall_reachable]
  refine ⟨⟨cornerCell brush p, cornerCell_mem hb p⟩, fun ⟨z, hz⟩ =>
    reachable_corner hb p brush hz ?_ ?_⟩
  · exact hz.1.2.le
  · exact hz.2.2.le

/-- Squares at samples near each other hang together. -/
theorem connected_union {brush : Nat} (hb : 0 < brush) {p q : Point ℚ} (near : Near p q)
    {S : Set (Int × Int)} (hS : (neighbours.induce S).Connected) (hq : cornerCell brush q ∈ S) :
    (neighbours.induce (square brush p ∪ S)).Connected := by
  have hp := cornerCell_mem hb p
  have hsquare := (connected_square hb p).preconnected
  by_cases same : cornerCell brush p = cornerCell brush q
  · exact SimpleGraph.induce_union_connected hsquare hS.preconnected ⟨_, hp, same ▸ hq⟩
  · exact SimpleGraph.connected_induce_union hsquare hS.preconnected hp hq
      ⟨same, abs_corner_sub_corner brush near.1, abs_corner_sub_corner brush near.2⟩

/-- **The squares of samples** of which each is near the next hang together. -/
theorem connected_squares {brush : Nat} (hb : 0 < brush) {l : List (Point ℚ)} (hl : l ≠ [])
    (near : l.IsChain Near) :
    (neighbours.induce {z | ∃ p ∈ l, z ∈ square brush p}).Connected := by
  induction l with
  | nil => exact absurd rfl hl
  | cons p l ih =>
      cases l with
      | nil =>
          have single : {z | ∃ r ∈ [p], z ∈ square brush r} = square brush p := by
            ext z
            simp
          rw [single]
          exact connected_square hb p
      | cons q l =>
          obtain ⟨hpq, rest⟩ := List.isChain_cons_cons.mp near
          have apart : {z | ∃ r ∈ p :: q :: l, z ∈ square brush r} =
              square brush p ∪ {z | ∃ r ∈ q :: l, z ∈ square brush r} := by
            ext z
            simp only [List.mem_cons (a := _) (b := p), exists_eq_or_imp, Set.mem_ofPred_eq,
              Set.mem_union]
          rw [apart]
          exact connected_union hb hpq (ih (List.cons_ne_nil q l) rest)
            ⟨q, List.mem_cons_self, cornerCell_mem hb q⟩

theorem samples_ne_nil {ps : List (Point ℚ)} (h : ps ≠ []) : samples ps ≠ [] := by
  match ps with
  | [p] => exact List.cons_ne_nil p []
  | p :: q :: ps =>
      have first : p ∈ segmentSamples p q := List.mem_of_mem_head? (ends_segmentSamples p q).1
      have : p ∈ samples (p :: q :: ps) :=
        List.mem_flatMap.mpr ⟨(p, q), List.mem_cons_self, first⟩
      exact List.ne_nil_of_mem this

/-- **A stroke has no gaps.**  The first and the last sample of every segment are its ends, the
corners of the brush at samples that follow each other are at most one column and one row apart,
and the cells that a stroke covers hang together, if there is a position at all. -/
theorem unbroken (ps : List (Point ℚ)) (width : ℚ)
    (near : ps.IsChain fun p q => |q.x - p.x| ≤ 2 ^ 32 - 1 ∧ |q.y - p.y| ≤ 2 ^ 32 - 1) :
    (∀ p q : Point ℚ,
      (segmentSamples p q).head? = some p ∧ (segmentSamples p q).getLast? = some q) ∧
    (samples ps).IsChain (fun p q =>
      |corner (brushSize width) p.x - corner (brushSize width) q.x| ≤ 1 ∧
      |corner (brushSize width) p.y - corner (brushSize width) q.y| ≤ 1) ∧
    (ps ≠ [] → (neighbours.induce (cells ps width)).Connected) := by
  have samplesNear := isChain_samples near
  refine ⟨ends_segmentSamples, samplesNear.imp fun p q h => ⟨abs_corner_sub_corner _ h.1,
    abs_corner_sub_corner _ h.2⟩, fun hps => ?_⟩
  have brush : 0 < brushSize width := Nat.lt_of_lt_of_le Nat.one_pos (Nat.le_max_right _ _)
  rw [cells_eq]
  exact connected_squares brush (samples_ne_nil hps) samplesNear

/-- A stroke of three pixels along a steep side, then back along a flat one. -/
theorem unbroken_corner :
    ([⟨0, 0⟩, ⟨1 / 3, 7 / 2⟩, ⟨-9, 3⟩] : List (Point ℚ)).IsChain
      (fun p q => |q.x - p.x| ≤ 2 ^ 32 - 1 ∧ |q.y - p.y| ≤ 2 ^ 32 - 1) ∧
    (neighbours.induce
      (cells ([⟨0, 0⟩, ⟨1 / 3, 7 / 2⟩, ⟨-9, 3⟩] : List (Point ℚ)) 3)).Connected := by
  have near : ([⟨0, 0⟩, ⟨1 / 3, 7 / 2⟩, ⟨-9, 3⟩] : List (Point ℚ)).IsChain
      (fun p q => |q.x - p.x| ≤ 2 ^ 32 - 1 ∧ |q.y - p.y| ≤ 2 ^ 32 - 1) := by
    norm_num [abs_le]
  exact ⟨near, (unbroken _ 3 near).2.2 (List.cons_ne_nil _ _)⟩

end FractalRender.Stroke
