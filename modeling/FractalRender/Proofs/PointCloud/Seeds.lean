import FractalRender.Proofs.PointCloud.Stream

/-!
# Point clouds — which configurations share a stream

A seed has the cap of its configuration from bit 7 on, and the length of the identifier below.  The
seven highest bits of the cap are shifted out, so caps that differ in them alone have the same seed
and the same stream.  All others are apart at every position: the step of the generator is injective,
so states that differ differ ever after.

* `packed_eq_iff`: what a cap and a length can be told from.
* `seed_eq_iff`, `seed_ne_zero`: when seeds are equal, and that none is 0.
* `streams_apart`: configurations that have the same stream, and those that never draw the same word.
-/

namespace FractalRender

/-- The word of a draw, the first of which has the number 0. -/
def Xorshift.drawn (g : Xorshift) (k : Nat) : UInt32 := (next^[k + 1] g).state

namespace PointCloud

/-! ### Seeds -/

/-- A cap and a small number stand side by side in a word; the cap loses its seven highest bits. -/
theorem toNat_packed (cap : UInt32) {n : Nat} (hn : n < 2 ^ 7) :
    ((cap <<< 7) ^^^ UInt32.ofNat n).toNat / 2 ^ 7 = cap.toNat % 2 ^ 25 ∧
      ((cap <<< 7) ^^^ UInt32.ofNat n).toNat % 2 ^ 7 = n := by
  have word : (UInt32.ofNat n).toNat = n := UInt32.toNat_ofNat_of_lt' (hn.trans (by decide))
  have shifted : (cap <<< 7).toNat = 2 ^ 7 * (cap.toNat % 2 ^ 25) := by
    rw [UInt32.toNat_shiftLeft]
    show cap.toNat <<< 7 % 2 ^ 32 = _
    rw [Nat.shiftLeft_eq]
    omega
  rw [UInt32.toNat_xor, word, shifted, Nat.xor_div_two_pow, Nat.xor_mod_two_pow,
    Nat.mul_div_cancel_left _ (Nat.two_pow_pos 7), Nat.mul_mod_right, Nat.div_eq_of_lt hn,
    Nat.mod_eq_of_lt hn, Nat.xor_zero, Nat.zero_xor]
  exact ⟨rfl, rfl⟩

/-- **What can be told from such a word**: the small number, and the cap but for its highest bits. -/
theorem packed_eq_iff {a b : UInt32} {m n : Nat} (hm : m < 2 ^ 7) (hn : n < 2 ^ 7) :
    (a <<< 7) ^^^ UInt32.ofNat m = (b <<< 7) ^^^ UInt32.ofNat n ↔
      m = n ∧ a.toNat % 2 ^ 25 = b.toNat % 2 ^ 25 := by
  obtain ⟨hcap, hlow⟩ := toNat_packed a hm
  obtain ⟨hcap', hlow'⟩ := toNat_packed b hn
  constructor
  · intro same
    rw [same, hcap'] at hcap
    rw [same, hlow'] at hlow
    exact ⟨hlow.symm, hcap.symm⟩
  · rintro ⟨low, cap⟩
    have quotients := hcap.trans (cap.trans hcap'.symm)
    have remainders := hlow.trans (low.trans hlow'.symm)
    apply UInt32.toNat_inj.mp
    rw [← Nat.div_add_mod ((a <<< 7) ^^^ UInt32.ofNat m).toNat (2 ^ 7), quotients, remainders,
      Nat.div_add_mod]

namespace Attractor

/-- The lengths of the identifiers tell the systems apart. -/
theorem length_eq_iff {s t : Attractor} :
    s.kind.id.utf8ByteSize = t.kind.id.utf8ByteSize ↔ s = t := by
  cases s <;> cases t <;> decide

theorem length_lt (s : Attractor) : s.kind.id.utf8ByteSize < 2 ^ 7 := by
  cases s <;> decide

/-- **Equal seeds** are those of one system and of caps that differ in the highest bits alone. -/
theorem seed_eq_iff {s t : Attractor} {a b : UInt32} :
    s.seed a = t.seed b ↔ s = t ∧ a.toNat % 2 ^ 25 = b.toNat % 2 ^ 25 := by
  rw [seed, seed, UInt32.xor_assoc, UInt32.xor_assoc, UInt32.xor_right_inj,
    packed_eq_iff s.length_lt t.length_lt, length_eq_iff]

/-- No seed is 0: the low bits of the constant are not the length of an identifier. -/
theorem seed_ne_zero (s : Attractor) (cap : UInt32) : s.seed cap ≠ 0 := by
  intro zero
  rw [seed, UInt32.xor_assoc, UInt32.xor_eq_zero_iff] at zero
  have low := (toNat_packed cap s.length_lt).2
  rw [← zero] at low
  cases s <;> exact absurd low (by decide)

end Attractor

/-! ### Streams -/

namespace Sampler

variable {α : Type} [Scalar α]

theorem random_new (s : Attractor) (cap : UInt32) :
    (new s cap : Sampler α).random = ⟨s.seed cap⟩ := by
  show Xorshift.ofSeed (s.seed cap) = _
  rw [Xorshift.ofSeed, if_neg (s.seed_ne_zero cap)]

/-- **Streams of random words.**  Two configurations of different systems, or of caps that differ
modulo `2 ^ 25`, have their generators in different states after every number of draws, and never
draw the same word at the same position.  One system at caps that are equal modulo `2 ^ 25` has one
stream. -/
theorem streams_apart (s t : Attractor) (a b : UInt32) :
    (¬ (s = t ∧ a.toNat % 2 ^ 25 = b.toNat % 2 ^ 25) → ∀ k,
      Xorshift.next^[k] (new s a : Sampler α).random ≠
        Xorshift.next^[k] (new t b : Sampler α).random ∧
      (new s a : Sampler α).random.drawn k ≠ (new t b : Sampler α).random.drawn k) ∧
    (s = t ∧ a.toNat % 2 ^ 25 = b.toNat % 2 ^ 25 → ∀ k,
      Xorshift.next^[k] (new s a : Sampler α).random =
        Xorshift.next^[k] (new t b : Sampler α).random ∧
      (new s a : Sampler α).random.drawn k = (new t b : Sampler α).random.drawn k) := by
  rw [← Attractor.seed_eq_iff, random_new, random_new]
  constructor
  · intro apart k
    have states (n : Nat) :
        Xorshift.next^[n] ⟨s.seed a⟩ ≠ Xorshift.next^[n] ⟨t.seed b⟩ := fun same =>
      apart (congrArg Xorshift.state (Xorshift.next_injective.iterate n same))
    exact ⟨states k, fun same => states (k + 1) (congrArg Xorshift.mk same)⟩
  · intro same k
    rw [same]
    exact ⟨rfl, rfl⟩

/-- The two systems at one cap never draw the same word. -/
theorem streams_apart_systems :
    ¬ (Attractor.barnsley = .sierpinski ∧
      (256 : UInt32).toNat % 2 ^ 25 = (256 : UInt32).toNat % 2 ^ 25) ∧
    (new .barnsley 256 : Sampler Float).random.drawn 1000 ≠
      (new .sierpinski 256 : Sampler Float).random.drawn 1000 := by
  have other : ¬ (Attractor.barnsley = .sierpinski ∧
      (256 : UInt32).toNat % 2 ^ 25 = (256 : UInt32).toNat % 2 ^ 25) := by decide
  exact ⟨other, ((streams_apart .barnsley .sierpinski 256 256).1 other 1000).2⟩

/-- A cap of no iterations and one of `2 ^ 25` have one seed. -/
theorem same_stream_of_high_bits :
    (Attractor.sierpinski, (0 : UInt32)) ≠ (Attractor.sierpinski, 33554432) ∧
      (new .sierpinski 0 : Sampler Float).random =
        (new .sierpinski 33554432 : Sampler Float).random ∧
      (new .sierpinski 0 : Sampler Float).random.drawn 0 =
        (new .sierpinski 33554432 : Sampler Float).random.drawn 0 := by
  decide +kernel

end Sampler

end PointCloud

end FractalRender
