import FractalRender.Proofs.PointCloud.Orbit
import FractalRender.Proofs.Raster.Rows

/-!
# Point clouds — the picture

Each point of the orbit lights one pixel or none, and lights that add up on one pixel stop at the
tint's ceiling.  So a pixel of the finished picture tells how many points of the orbit landed on it,
as far as the ceiling lets it: in which order they came, and what was lit besides, does not matter.

* `Tint.apply_shade`: lighting a pixel once more is counting one point more.
* `pixel?_lightPoint`, `pixel?_lightPoints`: what is seen after one point and after many.
* `showsCloud_of_isDone`: what a buffer shows once all points are plotted on it.
-/

namespace FractalRender

/-! ### Light that adds up -/

/-- A channel after so many lights. -/
def litChannel (k : Nat) (add ceiling : UInt8) : UInt8 :=
  UInt8.ofNat (min (k * add.toNat) ceiling.toNat)

theorem toNat_litChannel (k : Nat) (add ceiling : UInt8) :
    (litChannel k add ceiling).toNat = min (k * add.toNat) ceiling.toNat :=
  UInt8.toNat_ofNat_of_lt' (Nat.lt_of_le_of_lt (Nat.min_le_right _ _) ceiling.toNat_lt)

theorem toNat_addSaturating (a b : UInt8) :
    (addSaturating a b).toNat = min (a.toNat + b.toNat) 255 := by
  rw [addSaturating]
  split
  · rw [UInt8.toNat_add]
    omega
  · show 255 = _
    omega

/-- The sum is cut off at 255 before it is cut off at the ceiling, which makes no difference. -/
theorem toNat_lightenChannel (current add ceiling : UInt8) :
    (lightenChannel current add ceiling).toNat =
      if current.toNat < ceiling.toNat then min (current.toNat + add.toNat) ceiling.toNat
      else current.toNat := by
  have hceiling := ceiling.toNat_lt
  rw [lightenChannel]
  simp only [UInt8.lt_iff_toNat_lt]
  split
  · show (if addSaturating current add ≤ ceiling then _ else _ : UInt8).toNat = _
    simp only [UInt8.le_iff_toNat_le, toNat_addSaturating]
    split
    · rw [toNat_addSaturating]
      omega
    · omega
  · rfl

/-- A channel that is lit once more has one light more. -/
theorem lightenChannel_litChannel (k : Nat) (add ceiling : UInt8) :
    lightenChannel (litChannel k add ceiling) add ceiling = litChannel (k + 1) add ceiling := by
  rw [← UInt8.toNat_inj, toNat_lightenChannel, toNat_litChannel, toNat_litChannel, Nat.succ_mul]
  split <;> omega

/-- A pixel after so many lights. -/
def Tint.shade (t : Tint) (k : Nat) : Rgba :=
  if k = 0 then .clear
  else ⟨⟨litChannel k t.add.red t.ceiling.red, litChannel k t.add.green t.ceiling.green,
    litChannel k t.add.blue t.ceiling.blue⟩, 255⟩

/-- **Lighting a pixel once more** is counting one light more. -/
theorem Tint.apply_shade (t : Tint) (k : Nat) : t.apply (t.shade k) = t.shade (k + 1) := by
  have channels : (t.shade k).toRgb = ⟨litChannel k t.add.red t.ceiling.red,
      litChannel k t.add.green t.ceiling.green, litChannel k t.add.blue t.ceiling.blue⟩ := by
    rw [shade]
    split
    · next h =>
        subst h
        simp [litChannel, Rgba.clear]
    · rfl
  rw [apply, channels, shade, if_neg (Nat.succ_ne_zero k)]
  simp only [lightenChannel_litChannel]

example : (PointCloud.Attractor.tint .sierpinski).shade 12 = ⟨⟨120, 192, 255⟩, 255⟩ := by decide

namespace PointCloud

variable {α : Type} [Scalar α]

/-! ### One point -/

/-- The point is shown at the pixel: the pixel has the integer parts of its position. -/
def LandsOn (v : Viewport α) (size : Surface) (x y : Nat) (z : Complex α) : Prop :=
  Scalar.floor? (v.toPixel z size).x = some (x : Int) ∧
    Scalar.floor? (v.toPixel z size).y = some (y : Int)

instance (v : Viewport α) (size : Surface) (x y : Nat) : DecidablePred (LandsOn v size x y) :=
  fun _ => inferInstanceAs (Decidable (_ ∧ _))

open Sampler

/-- The pixel of a point, where it has one on the surface. -/
theorem cell?_eq_some {v : Viewport α} {size : Surface} {z : Complex α} {x y : Nat} :
    cell? v size z = some (x, y) ↔
      LandsOn v size x y z ∧ x < size.width.toNat ∧ y < size.height.toNat := by
  rw [cell?, LandsOn]
  cases Scalar.floor? (v.toPixel z size).x with
  | none => simp
  | some i =>
      cases Scalar.floor? (v.toPixel z size).y with
      | none => simp
      | some j =>
          simp only [Option.some.injEq]
          constructor
          · intro h
            split at h
            · next hin =>
                cases h
                omega
            · cases h
          · rintro ⟨⟨rfl, rfl⟩, hx, hy⟩
            rw [if_pos (by omega)]
            rfl

/-- **What is seen after one point**: the pixel at which it is shown is lit. -/
theorem pixel?_lightPoint (v : Viewport α) (t : Tint) (b : PixelBuffer) (z : Complex α)
    (x y : Nat) :
    (lightPoint v t b z).pixel? x y =
      if LandsOn v b.size x y z then (b.pixel? x y).map t.apply else b.pixel? x y := by
  rw [lightPoint]
  split
  · next i j hcell =>
      obtain ⟨⟨hi, hj⟩, -, -⟩ := cell?_eq_some.mp hcell
      have here : LandsOn v b.size x y z ↔ x = i ∧ y = j := by
        rw [LandsOn, hi, hj]
        simp only [Option.some.injEq]
        omega
      rw [PixelBuffer.pixel?_light]
      simp only [here]
      split
      · next h => rw [h.1, h.2]
      · rfl
  · next hcell =>
      -- a position that is lit lies outside
      split
      · next h =>
          have hout : b.pixel? x y = none :=
            PixelBuffer.pixel?_eq_none fun hc => nomatch hcell.symm.trans (cell?_eq_some.mpr ⟨h, hc⟩)
          rw [hout]
          rfl
      · rfl

/-- **A point that is shown at no pixel** of the buffer changes nothing. -/
theorem lightPoint_eq_self {v : Viewport α} {t : Tint} {b : PixelBuffer} {z : Complex α}
    (h : ∀ x y, b.Contains x y → ¬ LandsOn v b.size x y z) : lightPoint v t b z = b := by
  rw [lightPoint]
  split
  · next x y hcell =>
      obtain ⟨lands, hc⟩ := cell?_eq_some.mp hcell
      exact absurd lands (h x y hc)
  · rfl

/-! ### All points -/

/-- **What is seen after many points** where so many had been seen before. -/
theorem pixel?_lightPoints (v : Viewport α) (t : Tint) (zs : List (Complex α)) (b : PixelBuffer)
    {x y k : Nat} (h : b.pixel? x y = some (t.shade k)) :
    (zs.foldl (lightPoint v t) b).pixel? x y =
      some (t.shade (k + zs.countP fun z => decide (LandsOn v b.size x y z))) := by
  induction zs generalizing b k with
  | nil => exact h
  | cons z zs ih =>
      have hone := pixel?_lightPoint v t b z x y
      rw [h, Option.map_some, t.apply_shade] at hone
      rw [List.foldl_cons, List.countP_cons]
      by_cases lands : LandsOn v b.size x y z
      · rw [if_pos lands] at hone
        rw [ih _ hone, size_lightPoint, decide_eq_true lands, if_pos rfl, Nat.add_right_comm,
          Nat.add_assoc]
      · rw [if_neg lands] at hone
        rw [ih _ hone, size_lightPoint, decide_eq_false lands, if_neg Bool.false_ne_true,
          Nat.add_zero]

/-- How many points of the orbit are shown at a pixel. -/
def hits (system : Attractor) (cap : UInt32) (v : Viewport α) (size : Surface) (x y : Nat) : Nat :=
  (Sampler.new system cap).drain.2.toList.countP fun z => decide (LandsOn v size x y z)

/-- The buffer shows the point cloud: at each pixel the tint's shade for the points that are shown
there. -/
def ShowsCloud (system : Attractor) (cap : UInt32) (v : Viewport α) (b : PixelBuffer) : Prop :=
  ∀ x y, b.Contains x y → b.pixel? x y = some (system.tint.shade (hits system cap v b.size x y))

/-- Buffers of one size that show the same point cloud are the same. -/
theorem ShowsCloud.eq {system : Attractor} {cap : UInt32} {v : Viewport α} {b c : PixelBuffer}
    (size : b.size = c.size) (hb : ShowsCloud system cap v b) (hc : ShowsCloud system cap v c) :
    b = c := by
  refine PixelBuffer.ext_pixel? size fun x y => ?_
  have contains : b.Contains x y ↔ c.Contains x y := by
    rw [PixelBuffer.Contains, size]
  by_cases h : c.Contains x y
  · rw [hb x y (contains.mpr h), hc x y h, size]
  · rw [PixelBuffer.pixel?_eq_none h, PixelBuffer.pixel?_eq_none fun hb => h (contains.mp hb)]

/-- **Once all points are plotted** on an empty buffer, it shows the point cloud. -/
theorem showsCloud_of_isDone {system : Attractor} {cap : UInt32} {v : Viewport α} {size : Surface}
    {batches : List UInt32}
    (done : (advances v batches (Sampler.new system cap) (.blank size)).1.isDone = true) :
    (advances v batches (Sampler.new system cap) (.blank size)).2.size = size ∧
      ShowsCloud system cap v (advances v batches (Sampler.new system cap) (.blank size)).2 := by
  rw [buffer_advances done, ← Array.foldl_toList]
  have hsize : ((Sampler.new (α := α) system cap).drain.2.toList.foldl
      (lightPoint v (Sampler.new (α := α) system cap).system.tint) (.blank size)).size = size :=
    PixelBuffer.size_foldl (fun b z => size_lightPoint v _ b z) _ _
  refine ⟨hsize, fun x y hc => ?_⟩
  rw [PixelBuffer.Contains, hsize] at hc
  have hblank : (PixelBuffer.blank size).pixel? x y = some (system.tint.shade 0) := by
    rw [PixelBuffer.pixel?_blank, if_pos hc]
    rfl
  have hlit := pixel?_lightPoints v system.tint (Sampler.new system cap).drain.2.toList _ hblank
  rw [Nat.zero_add] at hlit
  rw [hsize]
  exact hlit

end PointCloud

end FractalRender
