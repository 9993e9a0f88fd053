import FractalRender.Raster.Surface
import Mathlib.Algebra.Order.Floor.Div
import Mathlib.Order.Nat

/-!
# Raster — bands cover a surface

`Tiles band h a rs` says that the ranges `rs` follow each other from row `a` on and end at row `h`:
none is empty, and each has `band` rows, except that the last may have fewer.

* `tiles_rowBands`: the bands of a surface tile its rows from 0 on, and a band height of 0 counts
  as 1.
* `Tiles.existsUnique`: of ranges that tile, every row lies in exactly one.
* `checkedRows_rowBands`: the sum that ends the rows of a band never overflows.
* `rowBands_tile`: how many bands there are, and each of them, with no word out of range.
-/

namespace FractalRender

namespace RowRange

/-- The row lies in the range. -/
def Contains (r : RowRange) (y : Nat) : Prop := r.start.toNat ≤ y ∧ y < r.stop.toNat

instance (r : RowRange) (y : Nat) : Decidable (r.Contains y) :=
  inferInstanceAs (Decidable (_ ∧ _))

/-- The ranges follow each other from row `a` on and end at row `h`, none empty and each of `band`
rows, the last possibly of fewer. -/
inductive Tiles (band h : Nat) : Nat → List RowRange → Prop where
  | done : Tiles band h h []
  | cut {a : Nat} {r : RowRange} {rs : List RowRange} (start : r.start.toNat = a)
      (nonempty : a < r.stop.toNat) (stop : r.stop.toNat = min (a + band) h)
      (rest : Tiles band h r.stop.toNat rs) : Tiles band h a (r :: rs)

/-- A range of a tiling starts at its first row or below. -/
theorem Tiles.le_start {band h a : Nat} {rs : List RowRange} (t : Tiles band h a rs) :
    ∀ r ∈ rs, a ≤ r.start.toNat := by
  induction t with
  | done => simp
  | cut start nonempty _ _ ih =>
      intro r hr
      rcases List.mem_cons.mp hr with rfl | hr
      · exact start.ge
      · exact Nat.le_trans nonempty.le (ih r hr)

/-- A range of a tiling has rows, and none beyond the end. -/
theorem Tiles.mem_bounds {band h a : Nat} {rs : List RowRange} (t : Tiles band h a rs) :
    ∀ r ∈ rs, r.start.toNat < r.stop.toNat ∧ r.stop.toNat ≤ h := by
  induction t with
  | done => simp
  | cut start nonempty stop _ ih =>
      intro r hr
      rcases List.mem_cons.mp hr with rfl | hr
      · exact ⟨start.symm ▸ nonempty, stop ▸ Nat.min_le_right _ _⟩
      · exact ih r hr

/-- **Each row once.**  Of ranges that tile the rows from `a` to `h`, every row lies in exactly
one. -/
theorem Tiles.existsUnique {band h a : Nat} {rs : List RowRange} (t : Tiles band h a rs) {y : Nat}
    (ha : a ≤ y) (hy : y < h) : ∃! i : Nat, ∃ r : RowRange, rs[i]? = some r ∧ r.Contains y := by
  induction t with
  | done => omega
  | @cut a r rs start nonempty stop rest ih =>
      by_cases hr : y < r.stop.toNat
      · refine ⟨0, ⟨r, rfl, start.le.trans ha, hr⟩, ?_⟩
        rintro (_ | i) ⟨q, hq, hc⟩
        · rfl
        · -- a later range starts where the first one stops, or below
          have := rest.le_start q (List.mem_of_getElem? hq)
          exact absurd hr (Nat.not_lt.mpr (this.trans hc.1))
      · obtain ⟨i, ⟨q, hq, hc⟩, hu⟩ := ih (Nat.not_lt.mp hr)
        refine ⟨i + 1, ⟨q, hq, hc⟩, ?_⟩
        rintro (_ | j) ⟨p, hp, hpc⟩
        · cases Option.some.inj hp
          exact absurd hpc.2 hr
        · rw [hu j ⟨p, hp, hpc⟩]

end RowRange

theorem bandCount_pos {h band : Nat} (hh : 0 < h) (hb : 0 < band) : 0 < bandCount h band := by
  unfold bandCount
  exact Nat.div_pos (by omega) hb

/-- A band starts above the last row. -/
theorem lt_of_lt_bandCount {h band i : Nat} (hb : 0 < band) (hi : i < bandCount h band) :
    i * band < h := by
  unfold bandCount at hi
  have := (Nat.le_div_iff_mul_le hb).mp hi
  rw [Nat.succ_mul] at this
  omega

/-- The bands reach the last row. -/
theorem le_bandCount_mul {h band : Nat} (hb : 0 < band) : h ≤ bandCount h band * band := by
  have := Nat.div_add_mod (h + band - 1) band
  have := Nat.mod_lt (h + band - 1) hb
  rw [bandCount, Nat.mul_comm]
  omega

theorem bandCount_le {h band : Nat} (hb : 0 < band) : bandCount h band ≤ h := by
  by_contra hn
  have := lt_of_lt_bandCount hb (Nat.lt_of_not_le hn)
  have := Nat.le_mul_of_pos_right h hb
  omega

theorem toNat_max (a b : UInt32) : (max a b).toNat = max a.toNat b.toNat := by
  show (if a ≤ b then b else a).toNat = _
  simp only [UInt32.le_iff_toNat_le]
  split <;> omega

theorem toNat_min (a b : UInt32) : (min a b).toNat = min a.toNat b.toNat := by
  show (if a ≤ b then a else b).toNat = _
  simp only [UInt32.le_iff_toNat_le]
  split <;> omega

/-- A band height of 0 counts as 1. -/
theorem bandHeight_pos (r : UInt32) : 0 < (max r 1).toNat := by
  rw [toNat_max, UInt32.toNat_one]
  omega

theorem height_pos {s : Surface} (hs : s.isEmpty = false) : 0 < s.height.toNat := by
  have hh : s.height ≠ 0 := by simpa using (Bool.or_eq_false_iff.mp hs).2
  exact Nat.pos_of_ne_zero fun h => hh (UInt32.toNat_inj.mp h)

/-- A surface with pixels has a band. -/
theorem size_rowBands_pos {s : Surface} (hs : s.isEmpty = false) (r : UInt32) :
    0 < (rowBands s r).size := by
  rw [size_rowBands]
  exact bandCount_pos (height_pos hs) (bandHeight_pos r)

/-- **The band with a given index**: its full width, and the rows from `i` times the band height
to the next band or to the end. -/
theorem getElem_rowBands (s : Surface) (r : UInt32) {i : Nat} (hi : i < (rowBands s r).size) :
    (rowBands s r)[i].x = 0 ∧ (rowBands s r)[i].width = s.width ∧
      (rowBands s r)[i].y.toNat = i * (max r 1).toNat ∧
      (rowBands s r)[i].y.toNat + (rowBands s r)[i].height.toNat =
        min ((i + 1) * (max r 1).toNat) s.height.toNat := by
  have hlt : i * (max r 1).toNat < s.height.toNat :=
    lt_of_lt_bandCount (bandHeight_pos r) (by rwa [size_rowBands] at hi)
  have hy : (UInt32.ofNat (i * (max r 1).toNat)).toNat = i * (max r 1).toNat :=
    UInt32.toNat_ofNat_of_lt' (hlt.trans s.height.toNat_lt)
  have hs : (s.height - UInt32.ofNat (i * (max r 1).toNat)).toNat =
      s.height.toNat - i * (max r 1).toNat := by
    rw [UInt32.toNat_sub_of_le _ _ (by rw [UInt32.le_iff_toNat_le, hy]; exact hlt.le), hy]
  simp only [rowBands, Array.getElem_map, Array.getElem_range, hy, toNat_min, hs, Nat.succ_mul,
    true_and]
  omega

/-- The rows of a band. -/
theorem rows_rowBands (s : Surface) (r : UInt32) {i : Nat} (hi : i < (rowBands s r).size) :
    (rowBands s r)[i].rows.start.toNat = i * (max r 1).toNat ∧
      (rowBands s r)[i].rows.stop.toNat = min ((i + 1) * (max r 1).toNat) s.height.toNat := by
  obtain ⟨-, -, hy, hh⟩ := getElem_rowBands s r hi
  refine ⟨hy, ?_⟩
  rw [← hh]
  refine (UInt32.toNat_add _ _).trans (Nat.mod_eq_of_lt ?_)
  rw [hh]
  exact Nat.lt_of_le_of_lt (Nat.min_le_right _ _) s.height.toNat_lt

/-- **The rows of a band end within the words**, so both builds give the same ones. -/
theorem checkedRows_rowBands (s : Surface) (r : UInt32) {i : Nat} (hi : i < (rowBands s r).size) :
    (rowBands s r)[i].checkedRows = .ok (rowBands s r)[i].rows := by
  obtain ⟨-, -, -, hsum⟩ := getElem_rowBands s r hi
  refine ((rowBands s r)[i].checkedRows_eq).trans (if_pos ?_)
  rw [hsum]
  exact Nat.lt_of_le_of_lt (Nat.min_le_right _ _) s.height.toNat_lt

/-- No band is without rows. -/
theorem isEmpty_rows_rowBands (s : Surface) (r : UInt32) {i : Nat}
    (hi : i < (rowBands s r).size) : (rowBands s r)[i].rows.isEmpty = false := by
  obtain ⟨hstart, hstop⟩ := rows_rowBands s r hi
  have hlt : i * (max r 1).toNat < s.height.toNat :=
    lt_of_lt_bandCount (bandHeight_pos r) (by rwa [size_rowBands] at hi)
  have := bandHeight_pos r
  rw [RowRange.isEmpty, decide_eq_false_iff_not, UInt32.le_iff_toNat_le, hstart, hstop,
    Nat.succ_mul]
  omega

/-- The bands from the one with index `i` on tile the rows from its first row on. -/
theorem tiles_drop_rowBands (s : Surface) (r : UInt32) (n i : Nat)
    (hn : (rowBands s r).size = i + n) :
    RowRange.Tiles (max r 1).toNat s.height.toNat (min (i * (max r 1).toNat) s.height.toNat)
      (((rowBands s r).toList.drop i).map PixelRect.rows) := by
  induction n generalizing i with
  | zero =>
      have he : min (i * (max r 1).toNat) s.height.toNat = s.height.toNat := by
        have := le_bandCount_mul (h := s.height.toNat) (bandHeight_pos r)
        rw [← size_rowBands, hn] at this
        exact Nat.min_eq_right this
      rw [he, List.drop_eq_nil_of_le (by simpa using hn.le)]
      exact .done
  | succ n ih =>
      have hi : i < (rowBands s r).size := by omega
      have hlt : i * (max r 1).toNat < s.height.toNat :=
        lt_of_lt_bandCount (bandHeight_pos r) (by rwa [size_rowBands] at hi)
      obtain ⟨hstart, hstop⟩ := rows_rowBands s r hi
      have hb := bandHeight_pos r
      have hd : (rowBands s r).toList.drop i =
          (rowBands s r)[i] :: (rowBands s r).toList.drop (i + 1) := by
        rw [List.drop_eq_getElem_cons (by simpa using hi), Array.getElem_toList]
      rw [hd, List.map_cons]
      refine .cut ?_ ?_ ?_ ?_
      · rw [hstart, Nat.min_eq_left hlt.le]
      · rw [hstop, Nat.succ_mul]
        omega
      · rw [hstop, Nat.succ_mul]
        omega
      · rw [hstop]
        exact ih (i + 1) (by omega)

/-- **The bands of a surface tile its rows.** -/
theorem tiles_rowBands (s : Surface) (r : UInt32) :
    RowRange.Tiles (max r 1).toNat s.height.toNat 0
      ((rowBands s r).toList.map PixelRect.rows) := by
  simpa using tiles_drop_rowBands s r _ 0 (Nat.zero_add _).symm

/-- **The bands of a surface, whatever its size and the band height.**  They tile its rows, and there
are as many as the height divided by the band height, rounded up.  A band is as wide as the surface
and starts at its index times the band height, which lies above the last row; it has the rows that
are left if these are fewer than the band height, and its end is its start and its height added, with
no word out of range: with overflow checks its rows are the same. -/
theorem rowBands_tile (s : Surface) (r : UInt32) :
    let band := max r.toNat 1
    let bands := rowBands s r
    bands.size = s.height.toNat ⌈/⌉ band ∧
    RowRange.Tiles band s.height.toNat 0 (bands.toList.map PixelRect.rows) ∧
    ∀ (i : Nat) (hi : i < bands.size),
      bands[i].x = 0 ∧ bands[i].width = s.width ∧
      bands[i].y.toNat = i * band ∧ bands[i].y < s.height ∧
      bands[i].height.toNat = min band (s.height.toNat - i * band) ∧ 0 < bands[i].height ∧
      bands[i].rows.start = bands[i].y ∧
      bands[i].rows.stop.toNat = bands[i].y.toNat + bands[i].height.toNat ∧
      bands[i].checkedRows = .ok bands[i].rows := by
  have hband : (max r 1).toNat = max r.toNat 1 := toNat_max r 1
  have hcount : (rowBands s r).size = s.height.toNat ⌈/⌉ max r.toNat 1 := by
    rw [size_rowBands, hband, bandCount, Nat.ceilDiv_eq_add_pred_div]
  refine ⟨hcount, hband ▸ tiles_rowBands s r, fun i hi => ?_⟩
  obtain ⟨hx, hwidth, hy, hsum⟩ := getElem_rowBands s r hi
  obtain ⟨-, hstop⟩ := rows_rowBands s r hi
  have hlt : i * (max r 1).toNat < s.height.toNat :=
    lt_of_lt_bandCount (bandHeight_pos r) (by rwa [size_rowBands] at hi)
  rw [hband] at hy hsum hstop hlt
  have hheight : (rowBands s r)[i].height.toNat =
      min (max r.toNat 1) (s.height.toNat - i * max r.toNat 1) := by
    rw [hy, Nat.succ_mul] at hsum
    omega
  refine ⟨hx, hwidth, hy, ?_, hheight, ?_, rfl, hstop.trans hsum.symm,
    checkedRows_rowBands s r hi⟩
  · rw [UInt32.lt_iff_toNat_lt, hy]
    exact hlt
  · rw [UInt32.lt_iff_toNat_lt, hheight, UInt32.toNat_zero]
    omega

/-- The last band at the greatest height, of a single row: a whole band more has no word. -/
theorem rowBands_tile_greatest :
    let s : Surface := ⟨2, 4294967295⟩
    let bands := rowBands s 4294967294
    bands.size = 2 ∧ ∃ hi : 1 < bands.size,
      bands[1].y = 4294967294 ∧ bands[1].height.toNat = 1 ∧ bands[1].rows.stop.toNat = 4294967295 := by
  obtain ⟨hcount, -, hbands⟩ := rowBands_tile ⟨2, 4294967295⟩ 4294967294
  have hi : 1 < (rowBands ⟨2, 4294967295⟩ 4294967294).size := hcount.symm ▸ by decide
  obtain ⟨-, -, hy, -, hheight, -, -, hstop, -⟩ := hbands 1 hi
  exact ⟨hcount, hi, UInt32.toNat_inj.mp hy, hheight, hstop.trans (by rw [hy, hheight]; rfl)⟩

end FractalRender
