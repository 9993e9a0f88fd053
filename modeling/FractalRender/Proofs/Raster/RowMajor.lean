import FractalRender.Proofs.Raster.Rows
import Mathlib.Data.List.Basic

/-!
# Raster — a buffer is an array of pixels

A buffer is known by its size and by what it shows at each position.  A history of operations leaves
at a position what the last write to it left, and the bytes are those of the pixels, row after row.

A write is a function of the pixel that stood there before: only a lit pixel depends on it.  An
operation that asks for another size writes everywhere, since the buffer is made anew; that is why a
write outside the buffer is not remembered when the buffer grows later.

* `Shows.perform`, `shows_after`: what one operation writes, and what a history leaves.
* `toList_rowBytes`: the bytes of a range of rows are those of the pixels of the rows that exist.
* `flatMap_rowBytes`: ranges that follow each other over all rows give all bytes.
* `rowMajor_after`: all of it for every history of a new buffer.
-/

namespace FractalRender

/-! ### Arrays in blocks -/

/-- A part of an array that is whole blocks of `k` is those blocks one after the other. -/
theorem toList_extract_blocks {β : Type} (a : Array β) (k m n : Nat) :
    (a.extract (m * k) ((m + n) * k)).toList =
      (List.range' m n).flatMap fun i => (a.extract (i * k) ((i + 1) * k)).toList := by
  induction n generalizing m with
  | zero => simp
  | succ n ih =>
      have first : m * k ≤ (m + 1) * k := Nat.mul_le_mul_right k (Nat.le_succ m)
      have others : (m + 1) * k ≤ (m + (n + 1)) * k := Nat.mul_le_mul_right k (by omega)
      have cut : a.extract (m * k) ((m + 1) * k) ++ a.extract ((m + 1) * k) ((m + (n + 1)) * k) =
          a.extract (m * k) ((m + (n + 1)) * k) := by
        rw [Array.extract_append_extract, Nat.min_eq_left first, Nat.max_eq_right others]
      rw [← cut, Array.toList_append, List.range'_succ, List.flatMap_cons, ← ih (m + 1),
        Nat.add_right_comm m 1 n, Nat.add_assoc]

/-- The numbers below `h` that lie between two bounds follow each other. -/
theorem filter_range_between (a c h : Nat) :
    (List.range h).filter (fun y => decide (a ≤ y ∧ y < c)) =
      List.range' (min a h) (min c h - min a h) := by
  induction h with
  | zero => simp
  | succ h ih =>
      rw [List.range_succ, List.filter_append, ih]
      by_cases hin : a ≤ h ∧ h < c
      · have := hin.1
        have := hin.2
        rw [List.filter_cons_of_pos (by simpa using hin), List.filter_nil]
        have start : min a (h + 1) = min a h := by omega
        have count : min c (h + 1) - min a h = (min c h - min a h) + 1 := by omega
        rw [start, count, List.range'_concat]
        congr 2
        omega
      · rw [List.filter_cons_of_neg (by simpa using hin), List.filter_nil, List.append_nil]
        by_cases ha : a ≤ h
        · congr 1 <;> omega
        · have none : min c h - min a h = 0 := by omega
          have noneYet : min c (h + 1) - min a (h + 1) = 0 := by omega
          rw [none, noneYet, List.range'_zero, List.range'_zero]

namespace PixelBuffer

/-! ### Bytes of pixels and of rows -/

/-- The bytes at a position; none outside the buffer. -/
def pixelBytes (b : PixelBuffer) (x y : Nat) : List UInt8 :=
  ((b.pixel? x y).map Rgba.toList).getD []

theorem toList_extract_pixel (b : PixelBuffer) {x y : Nat} (h : b.Contains x y) :
    (b.bytes.extract (b.size.offset x y) (b.size.offset x y + 4)).toList = b.pixelBytes x y := by
  have hi : b.size.offset x y + 3 < b.bytes.size := b.offset_add_lt h (by decide)
  rw [pixelBytes, pixel?, dif_pos h, Option.map_some, Option.getD_some, Array.toList_extract,
    List.extract_eq_take_drop, Nat.add_sub_cancel_left]
  iterate 4 rw [List.drop_eq_getElem_cons (by rw [Array.length_toList]; omega), List.take_succ_cons]
  rw [List.take_zero]
  rfl

/-- The bytes of a row are those of its pixels from left to right. -/
theorem toList_extract_row (b : PixelBuffer) {y : Nat} (hy : y < b.size.height.toNat) :
    (b.bytes.extract (y * (b.size.width.toNat * 4)) ((y + 1) * (b.size.width.toNat * 4))).toList =
      (List.range b.size.width.toNat).flatMap fun x => b.pixelBytes x y := by
  have hstart : y * (b.size.width.toNat * 4) = y * b.size.width.toNat * 4 := (Nat.mul_assoc ..).symm
  have hstop : (y + 1) * (b.size.width.toNat * 4) =
      (y * b.size.width.toNat + b.size.width.toNat) * 4 := by
    rw [Nat.succ_mul, Nat.add_mul, Nat.mul_assoc]
  rw [hstart, hstop, toList_extract_blocks, List.range'_eq_map_range, List.flatMap_map]
  refine List.flatMap_congr fun x hx => ?_
  rw [← b.toList_extract_pixel ⟨List.mem_range.mp hx, hy⟩, Nat.succ_mul]
  rfl

theorem rowBytes_eq_extract (b : PixelBuffer) (rows : RowRange) :
    b.rowBytes rows = b.bytes.extract
      (min rows.start.toNat b.size.height.toNat * (b.size.width.toNat * 4))
      (max (min rows.stop.toNat b.size.height.toNat) (min rows.start.toNat b.size.height.toNat) *
        (b.size.width.toNat * 4)) := rfl

/-- **The bytes of a range of rows** are those of the pixels of the rows in it that exist. -/
theorem toList_rowBytes (b : PixelBuffer) (rows : RowRange) :
    (b.rowBytes rows).toList =
      ((List.range b.size.height.toNat).filter fun y => decide (rows.Contains y)).flatMap fun y =>
        (List.range b.size.width.toNat).flatMap fun x => b.pixelBytes x y := by
  have hstop : max (min rows.stop.toNat b.size.height.toNat)
      (min rows.start.toNat b.size.height.toNat) = min rows.start.toNat b.size.height.toNat +
        (min rows.stop.toNat b.size.height.toNat - min rows.start.toNat b.size.height.toNat) := by
    omega
  rw [rowBytes_eq_extract, hstop, toList_extract_blocks, ← filter_range_between]
  refine List.flatMap_congr fun y hy => ?_
  exact b.toList_extract_row (List.mem_range.mp (List.mem_filter.mp hy).1)

end PixelBuffer

/-! ### Consecutive ranges -/

/-- The ranges follow each other from row `a` to row `c`. -/
inductive RowRange.Consecutive : Nat → Nat → List RowRange → Prop where
  | nil (a : Nat) : Consecutive a a []
  | cons {a c : Nat} {r : RowRange} {rs : List RowRange} (start : r.start.toNat = a)
      (le : a ≤ r.stop.toNat) (rest : Consecutive r.stop.toNat c rs) : Consecutive a c (r :: rs)

theorem RowRange.Consecutive.le {a c : Nat} {rs : List RowRange} (h : Consecutive a c rs) :
    a ≤ c := by
  induction h with
  | nil => exact Nat.le_refl _
  | cons _ le _ ih => exact Nat.le_trans le ih

namespace PixelBuffer

theorem toList_consecutive (b : PixelBuffer) {a c : Nat} {rs : List RowRange}
    (h : RowRange.Consecutive a c rs) :
    rs.flatMap (fun r => (b.rowBytes r).toList) =
      (b.bytes.extract (min a b.size.height.toNat * (b.size.width.toNat * 4))
        (min c b.size.height.toNat * (b.size.width.toNat * 4))).toList := by
  induction h with
  | nil => simp
  | @cons a c r rs start le rest ih =>
      have hle : min a b.size.height.toNat ≤ min r.stop.toNat b.size.height.toNat := by omega
      have hrest := rest.le
      have first := Nat.mul_le_mul_right (b.size.width.toNat * 4) hle
      have others : min r.stop.toNat b.size.height.toNat * (b.size.width.toNat * 4) ≤
          min c b.size.height.toNat * (b.size.width.toNat * 4) :=
        Nat.mul_le_mul_right _ (by omega)
      rw [List.flatMap_cons, ih, rowBytes_eq_extract, start, Nat.max_eq_left hle,
        ← Array.toList_append, Array.extract_append_extract, Nat.min_eq_left first,
        Nat.max_eq_right others]

/-- **Ranges that follow each other over all rows give all bytes.** -/
theorem flatMap_rowBytes (b : PixelBuffer) {c : Nat} {rs : List RowRange}
    (h : RowRange.Consecutive 0 c rs) (hc : b.size.height.toNat ≤ c) :
    rs.flatMap (fun r => (b.rowBytes r).toList) = b.bytes.toList := by
  have hsize : b.size.height.toNat * (b.size.width.toNat * 4) = b.bytes.size := by
    rw [b.size_bytes, Surface.area, ← Nat.mul_assoc, Nat.mul_comm b.size.height.toNat,
      Nat.mul_comm]
  rw [b.toList_consecutive h, Nat.min_eq_right hc, Nat.zero_min, Nat.zero_mul, hsize,
    Array.extract_size]

end PixelBuffer

/-! ### Histories -/

namespace PixelBuffer

/-- Something that changes a buffer. -/
inductive Operation where
  | ensureSize (s : Surface)
  | clear
  | fill (p : Rgba)
  | put (x y : Nat) (c : Rgb)
  | light (x y : Nat) (t : Tint)

/-- The buffer with an operation done. -/
def perform (b : PixelBuffer) : Operation → PixelBuffer
  | .ensureSize s => b.ensureSize s
  | .clear => b.clear
  | .fill p => b.fill p
  | .put x y c => b.put x y c
  | .light x y t => b.light x y t

/-- The buffer after operations, the newest one first. -/
def after (b : PixelBuffer) : List Operation → PixelBuffer
  | [] => b
  | op :: earlier => (b.after earlier).perform op

/-- The size that a buffer of size `s` has after operations, the newest one first. -/
def sizeAfter (s : Surface) : List Operation → Surface
  | [] => s
  | .ensureSize t :: _ => t
  | _ :: earlier => sizeAfter s earlier

/-- What an operation writes at a position of a buffer of size `s`, by what stood there before;
nothing when it leaves the position alone. -/
def Operation.write? (s : Surface) (x y : Nat) : Operation → Option (Rgba → Rgba)
  | ensureSize t => if s = t then none else some fun _ => .clear
  | clear => some fun _ => .clear
  | fill p => some fun _ => p
  | put x' y' c => if x = x' ∧ y = y' then some fun _ => c.solid else none
  | light x' y' t => if x = x' ∧ y = y' then some t.apply else none

/-- What the last write to a position left there, of operations on a buffer of size `s` with the
newest one first.  Before any write the pixel is empty. -/
def lastLeft (s : Surface) (x y : Nat) : List Operation → Rgba
  | [] => .clear
  | op :: earlier =>
    match op.write? (sizeAfter s earlier) x y with
    | some write => write (lastLeft s x y earlier)
    | none => lastLeft s x y earlier

theorem size_after (b : PixelBuffer) (ops : List Operation) :
    (b.after ops).size = sizeAfter b.size ops := by
  induction ops with
  | nil => rfl
  | cons op earlier ih =>
      cases op with
      | ensureSize s => exact size_ensureSize _ s
      | clear => exact ih
      | fill p => exact ih
      | put x y c => exact (size_put _ x y c).trans ih
      | light x y t => exact (size_light _ x y t).trans ih

/-- The buffer shows `image` at every position that it has. -/
def Shows (b : PixelBuffer) (image : Nat → Nat → Rgba) : Prop :=
  ∀ x y, b.pixel? x y = if b.Contains x y then some (image x y) else none

/-- **One operation** writes where it says, and leaves all other positions as they were. -/
theorem Shows.perform {b : PixelBuffer} {image : Nat → Nat → Rgba} (h : b.Shows image)
    (op : Operation) : (b.perform op).Shows fun x y =>
      match op.write? b.size x y with
      | some write => write (image x y)
      | none => image x y := by
  intro x y
  cases op with
  | ensureSize s =>
      by_cases hs : b.size = s
      · simp only [PixelBuffer.perform, ensureSize, Operation.write?, if_pos hs]
        exact h x y
      · simp only [PixelBuffer.perform, ensureSize, Operation.write?, if_neg hs]
        exact pixel?_blank s x y
  | clear => exact b.pixel?_fill .clear x y
  | fill p => exact b.pixel?_fill p x y
  | put x' y' c =>
      simp only [PixelBuffer.perform, pixel?_put, h x y, Operation.write?, Contains, size_put]
      grind
  | light x' y' t =>
      simp only [PixelBuffer.perform, pixel?_light, h x y, h x' y', Operation.write?, Contains,
        size_light]
      grind

/-- **What a buffer shows** after operations is what the last write to each position left. -/
theorem shows_after (s : Surface) (ops : List Operation) :
    ((blank s).after ops).Shows fun x y => lastLeft s x y ops := by
  induction ops with
  | nil => exact pixel?_blank s
  | cons op earlier ih =>
      have size : ((blank s).after earlier).size = sizeAfter s earlier := size_after _ _
      have shown := ih.perform op
      rw [size] at shown
      exact shown

/-! ### The buffer as a whole -/

/-- At most the pixel at a position differs, and nothing at all when the position lies outside. -/
structure ChangesOnly (b : PixelBuffer) (x y : Nat) (changed : PixelBuffer) : Prop where
  size : changed.size = b.size
  elsewhere {x' y' : Nat} (h : ¬ (x' = x ∧ y' = y)) : changed.pixel? x' y' = b.pixel? x' y'
  outside (h : ¬ b.Contains x y) : changed = b

theorem changesOnly_put (b : PixelBuffer) (x y : Nat) (c : Rgb) :
    b.ChangesOnly x y (b.put x y c) where
  size := b.size_put x y c
  elsewhere h := by rw [pixel?_put, if_neg fun hc => h ⟨hc.1, hc.2.1⟩]
  outside h := dif_neg h

theorem changesOnly_light (b : PixelBuffer) (x y : Nat) (t : Tint) :
    b.ChangesOnly x y (b.light x y t) where
  size := b.size_light x y t
  elsewhere h := by rw [pixel?_light, if_neg h]
  outside h := dif_neg h

/-- No access goes beyond the bytes: neither to a pixel of the buffer, nor to a range of rows,
reversed or beyond the last row as it may be. -/
structure InBounds (b : PixelBuffer) : Prop where
  pixel {x y : Nat} (h : b.Contains x y) : b.size.offset x y + 4 ≤ b.bytes.size
  rows (rows : RowRange) :
    let start := min rows.start.toNat b.size.height.toNat * (b.size.width.toNat * 4)
    let stop := max (min rows.stop.toNat b.size.height.toNat)
      (min rows.start.toNat b.size.height.toNat) * (b.size.width.toNat * 4)
    b.rowBytes rows = b.bytes.extract start stop ∧ start ≤ stop ∧ stop ≤ b.bytes.size

theorem inBounds (b : PixelBuffer) : b.InBounds where
  pixel h := b.offset_add_lt h (by decide : 3 < 4)
  rows rows := ⟨b.rowBytes_eq_extract rows, Nat.mul_le_mul_right _ (Nat.le_max_right _ _),
    b.mul_stride_le (Nat.max_le.mpr ⟨Nat.min_le_right _ _, Nat.min_le_right _ _⟩)⟩

/-- **A buffer is an array of pixels, row after row.**  Whatever is done to a new buffer, it has four
bytes for each pixel of the size it has come to; no access goes beyond them; a write changes its
pixel and no other; a pixel shows what the last write to it left; and the bytes of any range of rows
are those of the pixels of the rows in it that exist, so that ranges that follow each other over all
rows give all bytes. -/
theorem rowMajor_after {new : PixelBuffer} (hnew : new = empty ∨ ∃ s, new = blank s)
    (ops : List Operation) :
    let b := new.after ops
    b.size = sizeAfter new.size ops ∧
    b.bytes.size = 4 * (b.size.width.toNat * b.size.height.toNat) ∧ b.InBounds ∧
    (∀ x y c, b.ChangesOnly x y (b.put x y c)) ∧ (∀ x y t, b.ChangesOnly x y (b.light x y t)) ∧
    (∀ x y, b.pixel? x y =
      if b.Contains x y then some (lastLeft new.size x y ops) else none) ∧
    (∀ rows : RowRange, (b.rowBytes rows).toList =
      ((List.range b.size.height.toNat).filter fun y => decide (rows.Contains y)).flatMap fun y =>
        (List.range b.size.width.toNat).flatMap fun x => b.pixelBytes x y) ∧
    ∀ (c : Nat) (rs : List RowRange), RowRange.Consecutive 0 c rs → b.size.height.toNat ≤ c →
      rs.flatMap (fun r => (b.rowBytes r).toList) = b.bytes.toList := by
  have made : ∃ s, new = blank s := by
    rcases hnew with rfl | hs
    · exact ⟨⟨0, 0⟩, rfl⟩
    · exact hs
  obtain ⟨s, rfl⟩ := made
  intro b
  exact ⟨size_after _ _, b.size_bytes, b.inBounds, b.changesOnly_put, b.changesOnly_light,
    shows_after s ops, b.toList_rowBytes, fun _ _ hrs hc => b.flatMap_rowBytes hrs hc⟩

/-- A buffer that grew from nothing, with a write outside and a pixel painted and then lit. -/
theorem rowMajor_after_lit :
    let tint : Tint := ⟨⟨3, 24, 4⟩, ⟨120, 255, 140⟩⟩
    let b := empty.after [.light 1 0 tint, .put 2 0 ⟨1, 1, 1⟩, .put 1 0 ⟨10, 250, 30⟩,
      .fill .black, .ensureSize ⟨2, 2⟩, .put 0 1 ⟨9, 9, 9⟩]
    b.size = ⟨2, 2⟩ ∧ b.pixel? 1 0 = some ⟨⟨13, 255, 34⟩, 255⟩ ∧ b.pixel? 0 1 = some .black ∧
      b.pixel? 2 0 = none ∧
      [⟨0, 1⟩, ⟨1, 1⟩, ⟨1, 9⟩].flatMap (fun r => (b.rowBytes r).toList) = b.bytes.toList := by
  obtain ⟨hsize, -, -, -, -, hpixel, -, hrows⟩ := rowMajor_after (.inl rfl)
    [.light 1 0 ⟨⟨3, 24, 4⟩, ⟨120, 255, 140⟩⟩, .put 2 0 ⟨1, 1, 1⟩, .put 1 0 ⟨10, 250, 30⟩,
      .fill .black, .ensureSize ⟨2, 2⟩, .put 0 1 ⟨9, 9, 9⟩]
  refine ⟨hsize, (hpixel 1 0).trans (by decide), (hpixel 0 1).trans (by decide),
    (hpixel 2 0).trans (by decide), hrows 9 _ ?_ (by decide)⟩
  exact .cons rfl (by decide) (.cons rfl (by decide) (.cons rfl (by decide) (.nil 9)))

end PixelBuffer

end FractalRender
