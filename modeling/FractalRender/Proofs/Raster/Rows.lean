import FractalRender.Proofs.Raster.Bands
import FractalRender.Raster.PixelBuffer

/-!
# Raster — rows of a buffer, in bytes and in pixels

A byte of a buffer is one channel of the pixel at `column i`, `line i` (`getElem_bytes`), so what a
buffer shows decides its bytes.

* `rowBytes_congr`: buffers that show the same in some rows have the same bytes there.
* `ext_pixel?`: buffers of one size that show the same are the same.
* `foldl_writeRows`: rows of an image that are copied onto a frame, and together are all its rows,
  make the frame the image, whatever it held before.
-/

namespace FractalRender

namespace PixelBuffer

/-- The column of the pixel that a byte belongs to. -/
def column (b : PixelBuffer) (i : Nat) : Nat := i / 4 % b.size.width.toNat

/-- The row of the pixel that a byte belongs to. -/
def line (b : PixelBuffer) (i : Nat) : Nat := i / 4 / b.size.width.toNat

theorem width_pos_of_lt {b : PixelBuffer} {i : Nat} (hi : i < b.bytes.size) :
    0 < b.size.width.toNat := by
  rw [b.size_bytes, Surface.area] at hi
  exact Nat.pos_of_ne_zero fun h => by simp [h] at hi

theorem contains_column_line {b : PixelBuffer} {i : Nat} (hi : i < b.bytes.size) :
    b.Contains (b.column i) (b.line i) := by
  have hw := width_pos_of_lt hi
  refine ⟨Nat.mod_lt _ hw, Nat.div_lt_of_lt_mul ?_⟩
  rw [b.size_bytes, Surface.area] at hi
  omega

theorem offset_column_line (b : PixelBuffer) (i : Nat) :
    b.size.offset (b.column i) (b.line i) + i % 4 = i := by
  have := Nat.div_add_mod (i / 4) b.size.width.toNat
  rw [Nat.mul_comm] at this
  simp only [Surface.offset, column, line, this]
  omega

theorem pixel?_eq_none {b : PixelBuffer} {x y : Nat} (h : ¬ b.Contains x y) :
    b.pixel? x y = none :=
  dif_neg h

/-- A byte lies in the row `y` when it stands between the starts of the rows `y` and `y + 1`. -/
theorem line_mem_iff {b : PixelBuffer} (hw : 0 < b.size.width.toNat) (m n i : Nat) :
    (m ≤ b.line i ∧ b.line i < n) ↔
      m * (b.size.width.toNat * 4) ≤ i ∧ i < n * (b.size.width.toNat * 4) := by
  rw [line, Nat.div_div_eq_div_mul, Nat.mul_comm 4, Nat.le_div_iff_mul_le (by omega),
    Nat.div_lt_iff_lt_mul (by omega)]

/-- The channels of a pixel are the four bytes from its offset on. -/
theorem channel_get (b : PixelBuffer) {x y c : Nat} (h : b.Contains x y) (hc : c < 4)
    (hi : b.size.offset x y + c < b.bytes.size) :
    (b.get x y h).channel c = b.bytes[b.size.offset x y + c] := by
  match c, hc with
  | 0, _ | 1, _ | 2, _ | 3, _ => rfl

/-- **A byte is a channel of its pixel.** -/
theorem getElem_bytes (b : PixelBuffer) {i : Nat} (hi : i < b.bytes.size) :
    b.bytes[i] = (b.get _ _ (contains_column_line hi)).channel (i % 4) := by
  rw [channel_get b _ (Nat.mod_lt _ (by decide)) (by rwa [offset_column_line])]
  simp only [offset_column_line]

/-- Buffers that show the same at a pixel have the same bytes there. -/
theorem getElem_bytes_congr {b d : PixelBuffer} (hs : b.size = d.size) {i : Nat}
    (hb : i < b.bytes.size) (hd : i < d.bytes.size)
    (h : b.pixel? (b.column i) (b.line i) = d.pixel? (b.column i) (b.line i)) :
    b.bytes[i] = d.bytes[i] := by
  have hc : b.column i = d.column i ∧ b.line i = d.line i := by simp [column, line, hs]
  have hg := contains_column_line hd
  rw [getElem_bytes, getElem_bytes]
  simp only [pixel?, dif_pos (contains_column_line hb)] at h
  simp only [hc.1, hc.2, dif_pos hg] at h
  simp only [hc.1, hc.2]
  rw [Option.some.inj h]

/-! ### Rows -/

theorem mul_stride_le (b : PixelBuffer) {n : Nat} (hn : n ≤ b.size.height.toNat) :
    n * (b.size.width.toNat * 4) ≤ b.bytes.size := by
  calc n * (b.size.width.toNat * 4)
      ≤ b.size.height.toNat * (b.size.width.toNat * 4) := Nat.mul_le_mul_right _ hn
    _ = 4 * b.size.area := by
        rw [Surface.area, Nat.mul_comm, Nat.mul_comm _ 4, Nat.mul_assoc]
    _ = b.bytes.size := b.size_bytes.symm

/-- The bytes of rows that exist. -/
theorem rowBytes_eq (b : PixelBuffer) {rows : RowRange} (hr : rows.start.toNat ≤ rows.stop.toNat)
    (hh : rows.stop.toNat ≤ b.size.height.toNat) :
    b.rowBytes rows = b.bytes.extract (rows.start.toNat * (b.size.width.toNat * 4))
      (rows.stop.toNat * (b.size.width.toNat * 4)) := by
  simp only [rowBytes, Nat.min_eq_left hh, Nat.min_eq_left (hr.trans hh), Nat.max_eq_left hr]

/-- **Buffers that show the same in some rows have the same bytes there.** -/
theorem rowBytes_congr {b d : PixelBuffer} (hs : b.size = d.size) {rows : RowRange}
    (h : ∀ x y, rows.Contains y → b.pixel? x y = d.pixel? x y) :
    b.rowBytes rows = d.rowBytes rows := by
  have hsize : b.bytes.size = d.bytes.size := by rw [b.size_bytes, d.size_bytes, hs]
  refine Array.ext ?_ fun k hb hd => ?_
  · simp only [rowBytes, Array.size_extract, hs, hsize]
  · simp only [rowBytes, Array.size_extract] at hb
    simp only [rowBytes, Array.getElem_extract, ← hs]
    refine getElem_bytes_congr hs (by omega) (by omega) (h _ _ ?_)
    have hi : min rows.start.toNat b.size.height.toNat * (b.size.width.toNat * 4) + k <
        b.bytes.size := by omega
    obtain ⟨hl, hu⟩ := (line_mem_iff (width_pos_of_lt hi) _ _ _).mpr
      ⟨Nat.le_add_right _ k, Nat.lt_of_lt_of_le (Nat.add_lt_of_lt_sub' hb) (Nat.min_le_left _ _)⟩
    have hc := (contains_column_line hi).2
    exact ⟨by omega, by omega⟩

/-- Buffers with the same size and bytes are the same. -/
theorem ext_bytes {b d : PixelBuffer} (hs : b.size = d.size) (hb : b.bytes = d.bytes) : b = d := by
  cases b
  cases d
  simp only at hs hb
  subst hs hb
  rfl

/-- **Buffers of one size that show the same are the same.** -/
theorem ext_pixel? {b d : PixelBuffer} (hs : b.size = d.size)
    (h : ∀ x y, b.pixel? x y = d.pixel? x y) : b = d :=
  ext_bytes hs (Array.ext (by rw [b.size_bytes, d.size_bytes, hs])
    fun _ hb hd => getElem_bytes_congr hs hb hd (h _ _))

/-- Filled buffers of one size are the same. -/
theorem fill_congr {b d : PixelBuffer} (hs : b.size = d.size) (p : Rgba) : b.fill p = d.fill p :=
  ext_pixel? hs fun x y => by
    simp only [pixel?_fill, Contains, hs]

/-! ### Rows copied onto a frame -/

/-- The frame with bytes written over its own from a row on. -/
def writeRows (b : PixelBuffer) (rows : RowRange) (bytes : Array UInt8) : PixelBuffer where
  size := b.size
  bytes :=
    let start := rows.start.toNat * (b.size.width.toNat * 4)
    Array.ofFn fun i : Fin (4 * b.size.area) =>
      have hi : i.val < b.bytes.size := b.size_bytes.symm ▸ i.isLt
      let old := b.bytes[i.val]
      if start ≤ i.val then bytes.getD (i.val - start) old else old
  size_bytes := by simp

@[simp] theorem size_writeRows (b : PixelBuffer) (rows : RowRange) (bytes : Array UInt8) :
    (b.writeRows rows bytes).size = b.size := rfl

/-- What a frame holds after rows of an image of its size are copied onto it. -/
theorem getElem_writeRows {image frame : PixelBuffer} (hs : frame.size = image.size)
    {rows : RowRange} (hr : rows.start.toNat ≤ rows.stop.toNat)
    (hh : rows.stop.toNat ≤ image.size.height.toNat) {i : Nat}
    (hi : i < image.bytes.size) (hf : i < frame.bytes.size)
    (hw : i < (frame.writeRows rows (image.rowBytes rows)).bytes.size) :
    (frame.writeRows rows (image.rowBytes rows)).bytes[i] =
      if rows.Contains (image.line i) then image.bytes[i] else frame.bytes[i] := by
  have hmem := line_mem_iff (width_pos_of_lt hi) rows.start.toNat rows.stop.toNat i
  have hle := image.mul_stride_le hh
  simp only [writeRows, Array.getElem_ofFn, hs, rowBytes_eq _ hr hh, Array.getD_eq_getD_getElem?,
    Array.getElem?_extract, RowRange.Contains, hmem, Nat.min_eq_left hle]
  by_cases hstart : rows.start.toNat * (image.size.width.toNat * 4) ≤ i
  · rw [if_pos hstart, Nat.add_sub_cancel' hstart]
    by_cases hstop : i < rows.stop.toNat * (image.size.width.toNat * 4)
    · rw [if_pos (by omega), if_pos ⟨hstart, hstop⟩, Array.getElem?_eq_getElem hi, Option.getD_some]
    · rw [if_neg (by omega), if_neg (fun h => hstop h.2), Option.getD_none]
  · rw [if_neg hstart, if_neg (fun h => hstart h.1)]

/-- What a frame holds after several ranges of rows of an image of its size are copied onto it. -/
theorem getElem_foldl_writeRows {image frame : PixelBuffer} (hs : frame.size = image.size)
    (rs : List RowRange)
    (hr : ∀ r ∈ rs, r.start.toNat ≤ r.stop.toNat ∧ r.stop.toNat ≤ image.size.height.toNat)
    {i : Nat} (hi : i < image.bytes.size) (hf : i < frame.bytes.size)
    (hc : frame.bytes[i] = image.bytes[i] ∨ ∃ r ∈ rs, r.Contains (image.line i))
    (hw : i < (rs.foldl (fun f r => f.writeRows r (image.rowBytes r)) frame).bytes.size) :
    (rs.foldl (fun f r => f.writeRows r (image.rowBytes r)) frame).bytes[i] = image.bytes[i] := by
  induction rs generalizing frame with
  | nil => exact hc.resolve_right (by simp)
  | cons r rs ih =>
      obtain ⟨hr₁, hr₂⟩ := hr r List.mem_cons_self
      have hf' : i < (frame.writeRows r (image.rowBytes r)).bytes.size := by
        rw [PixelBuffer.size_bytes, size_writeRows, ← frame.size_bytes]
        exact hf
      have hs' : (frame.writeRows r (image.rowBytes r)).size = image.size := hs
      refine ih hs' (fun q hq => hr q (List.mem_cons_of_mem _ hq)) hf' ?_ hw
      rw [getElem_writeRows hs hr₁ hr₂ hi hf]
      -- the first range writes the byte, or a later one has to
      by_cases hin : r.Contains (image.line i)
      · exact .inl (if_pos hin)
      · rw [if_neg hin]
        refine hc.imp_right ?_
        rintro ⟨q, hq, hqc⟩
        rcases List.mem_cons.mp hq with rfl | hq
        · exact absurd hqc hin
        · exact ⟨q, hq, hqc⟩

theorem size_foldl_writeRows (image frame : PixelBuffer) (rs : List RowRange) :
    (rs.foldl (fun f r => f.writeRows r (image.rowBytes r)) frame).size = frame.size :=
  size_foldl (f := fun f r => f.writeRows r (image.rowBytes r)) (fun _ _ => rfl) rs frame

/-- **Rows of an image that are copied onto a frame of its size, and together are all its rows,
make the frame the image.** -/
theorem foldl_writeRows {image frame : PixelBuffer} (hs : frame.size = image.size)
    (rs : List RowRange)
    (hr : ∀ r ∈ rs, r.start.toNat ≤ r.stop.toNat ∧ r.stop.toNat ≤ image.size.height.toNat)
    (hall : ∀ y < image.size.height.toNat, ∃ r ∈ rs, r.Contains y) :
    rs.foldl (fun f r => f.writeRows r (image.rowBytes r)) frame = image := by
  have hsize := (size_foldl_writeRows image frame rs).trans hs
  refine ext_bytes hsize (Array.ext (by rw [PixelBuffer.size_bytes, hsize, image.size_bytes])
    fun i hw hi => ?_)
  have hf : i < frame.bytes.size := by rw [frame.size_bytes, hs, ← image.size_bytes]; exact hi
  exact getElem_foldl_writeRows hs rs hr hi hf (.inr (hall _ (contains_column_line hi).2)) hw

end PixelBuffer

end FractalRender
