import FractalRender.Json.Reader
import Mathlib.Data.List.Basic
import Mathlib.Data.List.TakeWhile
import Mathlib.Tactic.IntervalCases

/-!
# JSON — number literals

`IsNumber` is the grammar of number literals.  The reader takes such a literal as it stands before
anything that could not go on with it, and both printers of numbers keep to the grammar: words are
written by their digits, and doubles in the layout of JSON.

* `readNumber?_append`: a number literal is read up to what ends it.
* `word?_eq_some_iff`: the word that a literal stands for.
* `isNumber_writeFloat`: every double is written as a number literal.
-/

namespace FractalRender.Json

/-- One digit or more. -/
def IsDigits (ds : List Char) : Prop := ds ≠ [] ∧ ∀ c ∈ ds, isDigit c = true

/-- The whole part of a number: 0, or digits that do not start with 0. -/
inductive IsWhole : List Char → Prop where
  | zero : IsWhole ['0']
  | digits {ds : List Char} (h : IsDigits ds) (h0 : ds.head? ≠ some '0') : IsWhole ds

/-- The point and the digits after it, if there is a point. -/
inductive IsFraction : List Char → Prop where
  | none : IsFraction []
  | point {ds : List Char} (h : IsDigits ds) : IsFraction ('.' :: ds)

/-- The exponent, with or without a sign, if there is one. -/
inductive IsExponent : List Char → Prop where
  | none : IsExponent []
  | marked {mark : Char} {sign ds : List Char} (hm : mark = 'e' ∨ mark = 'E')
      (hs : sign = [] ∨ sign = ['+'] ∨ sign = ['-']) (h : IsDigits ds) :
      IsExponent (mark :: (sign ++ ds))

/-- A number literal without a sign. -/
inductive IsUnsigned : List Char → Prop where
  | mk {whole fraction exponent : List Char} (hw : IsWhole whole) (hf : IsFraction fraction)
      (he : IsExponent exponent) : IsUnsigned (whole ++ fraction ++ exponent)

/-- A number literal. -/
inductive IsNumber : List Char → Prop where
  | unsigned {s : List Char} (h : IsUnsigned s) : IsNumber s
  | negative {s : List Char} (h : IsUnsigned s) : IsNumber ('-' :: s)

/-- No number literal goes on with what follows. -/
def EndsNumber (rest : List Char) : Prop :=
  ∀ c ∈ rest.head?, isDigit c = false ∧ c ≠ '.' ∧ c ≠ 'e' ∧ c ≠ 'E'

theorem endsNumber_nil : EndsNumber [] := nofun

theorem endsNumber_cons {c : Char} (rest : List Char)
    (h : isDigit c = false ∧ c ≠ '.' ∧ c ≠ 'e' ∧ c ≠ 'E') : EndsNumber (c :: rest) := by
  rintro c ⟨⟩
  exact h

/-! ### Reading the parts -/

section

variable {rest : List Char}

theorem readDigits?_append {ds : List Char} (h : IsDigits ds)
    (hr : ∀ c ∈ rest.head?, isDigit c = false) : readDigits? (ds ++ rest) = some (ds, rest) := by
  have taken : rest.takeWhile isDigit = [] := by
    cases rest with
    | nil => rfl
    | cons c s => rw [List.takeWhile_cons, hr c rfl, if_neg Bool.false_ne_true]
  have left : rest.dropWhile isDigit = rest := by
    cases rest with
    | nil => rfl
    | cons c s => rw [List.dropWhile_cons, hr c rfl, if_neg Bool.false_ne_true]
  unfold readDigits?
  rw [List.takeWhile_append_of_pos h.2, List.dropWhile_append_of_pos h.2, taken, left,
    List.append_nil]
  exact if_neg (by simpa using h.1)

theorem readWhole?_append {whole : List Char} (h : IsWhole whole)
    (hr : ∀ c ∈ rest.head?, isDigit c = false) :
    readWhole? (whole ++ rest) = some (whole, rest) := by
  cases h with
  | zero => rfl
  | digits h h0 =>
      rw [readWhole?, readDigits?_append h hr]
      intro s hs
      obtain ⟨c, ds, rfl⟩ := List.exists_cons_of_ne_nil h.1
      cases hs
      exact h0 rfl

theorem readFraction?_append {fraction : List Char} (h : IsFraction fraction)
    (hr : ∀ c ∈ rest.head?, isDigit c = false ∧ c ≠ '.') :
    readFraction? (fraction ++ rest) = some (fraction, rest) := by
  cases h with
  | none =>
      rw [List.nil_append, readFraction?]
      rintro s rfl
      exact (hr '.' rfl).2 rfl
  | point h =>
      rw [List.cons_append, readFraction?, readDigits?_append h fun c hc => (hr c hc).1,
        Option.map_some]

/-- The sign of an exponent is read as it stands before the digits. -/
theorem readSign_append {sign ds : List Char} (h : IsDigits ds)
    (hs : sign = [] ∨ sign = ['+'] ∨ sign = ['-']) (rest : List Char) :
    readSign (sign ++ (ds ++ rest)) = (sign, ds ++ rest) := by
  obtain rfl | rfl | rfl := hs
  · obtain ⟨c, s, rfl⟩ := List.exists_cons_of_ne_nil h.1
    have hc := h.2 c List.mem_cons_self
    rw [List.nil_append, List.cons_append, readSign]
    all_goals
      rintro t ⟨⟩
      exact absurd hc (by decide)
  · rfl
  · rfl

theorem readExponent?_append {exponent : List Char} (h : IsExponent exponent)
    (hr : EndsNumber rest) : readExponent? (exponent ++ rest) = some (exponent, rest) := by
  cases h with
  | none =>
      cases rest with
      | nil => rfl
      | cons c s =>
          obtain ⟨_, _, he, hE⟩ := hr c rfl
          rw [List.nil_append, readExponent?, if_neg (by simp [he, hE])]
  | @marked mark sign ds hm hs h =>
      have digits := readDigits?_append h fun c hc => (hr c hc).1
      have marks : (decide (mark = 'e') || decide (mark = 'E')) = true := by simpa using hm
      rw [List.cons_append, List.append_assoc, readExponent?, if_pos marks,
        readSign_append h hs rest]
      simp only [digits, Option.map_some]

theorem head?_exponent_append {exponent : List Char} (h : IsExponent exponent)
    (hr : EndsNumber rest) :
    ∀ c ∈ (exponent ++ rest).head?, isDigit c = false ∧ c ≠ '.' := by
  cases h with
  | none => exact fun c hc => ⟨(hr c hc).1, (hr c hc).2.1⟩
  | marked hm =>
      rintro c ⟨⟩
      obtain rfl | rfl := hm <;> decide

theorem head?_fraction_append {fraction : List Char} (h : IsFraction fraction)
    (hr : ∀ c ∈ rest.head?, isDigit c = false ∧ c ≠ '.') :
    ∀ c ∈ (fraction ++ rest).head?, isDigit c = false := by
  cases h with
  | none => exact fun c hc => (hr c hc).1
  | point =>
      rintro c ⟨⟩
      rfl

/-- A literal without a sign starts with a digit. -/
theorem IsUnsigned.head {s : List Char} (h : IsUnsigned s) :
    ∃ c t, s = c :: t ∧ isDigit c = true := by
  obtain @⟨whole, fraction, exponent, hw, hf, he⟩ := h
  cases hw with
  | zero => exact ⟨_, _, rfl, rfl⟩
  | digits h h0 =>
      obtain ⟨c, ds, rfl⟩ := List.exists_cons_of_ne_nil h.1
      exact ⟨c, _, rfl, h.2 c List.mem_cons_self⟩

/-- **A number literal is read up to what ends it.** -/
theorem readNumber?_append {s : List Char} (h : IsNumber s) (hr : EndsNumber rest) :
    readNumber? (s ++ rest) = some (s, rest) := by
  have parts : ∀ {s : List Char}, IsUnsigned s → ∀ sign : List Char, (do
      let whole ← readWhole? (s ++ rest)
      let fraction ← readFraction? whole.2
      let exponent ← readExponent? fraction.2
      some (sign ++ whole.1 ++ fraction.1 ++ exponent.1, exponent.2)) =
        some (sign ++ s, rest) := by
    intro s h sign
    obtain @⟨whole, fraction, exponent, hw, hf, he⟩ := h
    have endsFraction := head?_exponent_append he hr
    have endsWhole := head?_fraction_append hf endsFraction
    simp only [List.append_assoc, readWhole?_append hw endsWhole,
      readFraction?_append hf endsFraction, readExponent?_append he hr, Option.bind_eq_bind,
      Option.bind_some]
  unfold readNumber?
  cases h with
  | unsigned h =>
      split
      next first t hfirst =>
        split at hfirst
        · next hminus =>
            -- a digit comes first and no sign
            obtain ⟨c, u, rfl, hc⟩ := h.head
            cases hminus
            exact absurd hc (by decide)
        · cases hfirst
          exact parts h []
  | negative h => exact parts h ['-']

end

/-! ### Digits of a natural number -/

theorem isDigits_toDigits (n : Nat) : IsDigits (Nat.toDigits 10 n) :=
  ⟨Nat.toDigits_ne_nil, fun _ hc => Nat.isDigit_of_mem_toDigits (by decide) (by decide) hc⟩

/-- Only 0 is written with a zero in front. -/
theorem head?_toDigits {n : Nat} (h : n ≠ 0) : (Nat.toDigits 10 n).head? ≠ some '0' := by
  induction n using Nat.strongRecOn with
  | ind n ih =>
      by_cases small : n < 10
      · rw [Nat.toDigits_of_lt_base small]
        interval_cases n <;> simp_all
      · rw [Nat.toDigits_of_base_le (by decide) (Nat.not_lt.mp small),
          List.head?_append_of_ne_nil _ Nat.toDigits_ne_nil]
        exact ih (n / 10) (by omega) (by omega)

theorem isWhole_toDigits (n : Nat) : IsWhole (Nat.toDigits 10 n) := by
  by_cases h : n = 0
  · rw [h]
    exact .zero
  · exact .digits (isDigits_toDigits n) (head?_toDigits h)

theorem isNumber_toDigits (n : Nat) : IsNumber (Nat.toDigits 10 n) := by
  have h := IsUnsigned.mk (isWhole_toDigits n) .none .none
  rw [List.append_nil, List.append_nil] at h
  exact .unsigned h

theorem digitsValue_toDigits (n : Nat) : digitsValue (Nat.toDigits 10 n) = n := by
  have h : Nat.ofDigitChars 10 (Nat.toDigits 10 n) 0 = n := Nat.ofDigitChars_ten_toDigits
  rw [Nat.ofDigitChars_eq_foldl] at h
  simpa only [digitsValue, Nat.mul_comm] using h

theorem ofLiteral_digits {ds : List Char} (h : ∀ c ∈ ds, isDigit c = true) :
    NumberParts.ofLiteral ds = ⟨false, ds, none, none⟩ := by
  have sign : (ds.head? == some '-') = false := by
    rw [beq_eq_false_iff_ne]
    intro hhead
    exact absurd (h '-' (List.mem_of_head? hhead)) (by decide)
  have taken : ds.takeWhile isDigit = ds := List.takeWhile_eq_self_iff.mpr h
  have left : ds.dropWhile isDigit = [] := List.dropWhile_eq_nil_iff.mpr h
  simp [NumberParts.ofLiteral, sign, taken, left]

/-- **The word that a literal stands for**: the literal has nothing but digits, and their value is a
word. -/
theorem word?_eq_some_iff {literal : List Char} {n : UInt32} :
    word? literal = some n ↔
      (∀ c ∈ literal, isDigit c = true) ∧ digitsValue literal = n.toNat := by
  constructor
  · intro h
    have digits : ∀ c ∈ literal, isDigit c = true := by
      -- without a sign, a point and an exponent nothing stands before or after the digits
      rw [← List.dropWhile_eq_nil_iff]
      simp only [word?, NumberParts.ofLiteral] at h
      grind
    rw [word?, ofLiteral_digits digits] at h
    dsimp only at h
    split at h
    · next hword =>
        cases h
        have hlt : digitsValue literal < UInt32.size := by simpa using hword
        exact ⟨digits, (UInt32.toNat_ofNat_of_lt' hlt).symm⟩
    · cases h
  · rintro ⟨digits, hn⟩
    rw [word?, ofLiteral_digits digits]
    simp [hn, n.toNat_lt_size]

/-- The digits of a word stand for it. -/
theorem word?_toDigits (n : UInt32) : word? (Nat.toDigits 10 n.toNat) = some n :=
  word?_eq_some_iff.mpr ⟨(isDigits_toDigits _).2, digitsValue_toDigits _⟩

/-! ### Doubles in the layout of JSON -/

open Decimal

theorem isDigit_of_mem_zeros {k : Nat} {c : Char} (h : c ∈ List.replicate k '0') :
    isDigit c = true := by
  rw [List.eq_of_mem_replicate h]
  rfl

section

variable {ds : List Char}

theorem IsDigits.zeros_append (h : IsDigits ds) (k : Nat) :
    IsDigits (List.replicate k '0' ++ ds) := by
  refine ⟨by simp [h.1], fun c hc => ?_⟩
  rcases List.mem_append.mp hc with hc | hc
  · exact isDigit_of_mem_zeros hc
  · exact h.2 c hc

theorem IsDigits.append_zeros (h : IsDigits ds) (k : Nat) :
    IsDigits (ds ++ List.replicate k '0') := by
  refine ⟨by simp [h.1], fun c hc => ?_⟩
  rcases List.mem_append.mp hc with hc | hc
  · exact h.2 c hc
  · exact isDigit_of_mem_zeros hc

/-- The first digits of several are a whole part if all of them are. -/
theorem IsWhole.take (h : IsWhole ds) {n : Nat} (hn : 0 < n) (hlen : n < ds.length) :
    IsWhole (ds.take n) := by
  cases h with
  | zero => exact absurd hlen (by simpa using hn.ne')
  | digits hd h0 =>
      refine .digits ⟨?_, fun c hc => hd.2 c (List.mem_of_mem_take hc)⟩ ?_
      · simpa [hd.1] using hn.ne'
      · rwa [List.head?_take, if_neg hn.ne']

/-- Places may be added to a whole part that is not 0. -/
theorem IsWhole.append_zeros (h : IsWhole ds) {k : Nat} (h0 : ds = ['0'] → k = 0) :
    IsWhole (ds ++ List.replicate k '0') := by
  cases h with
  | zero =>
      rw [h0 rfl]
      exact .zero
  | digits hd hhead =>
      refine .digits (hd.append_zeros k) ?_
      rwa [List.head?_append_of_ne_nil _ hd.1]

/-- Digits written out in full are a whole part and a fraction.  A zero needs no place beyond
the first. -/
theorem isUnsigned_positional {e : Int} (hw : IsWhole ds) (hd : IsDigits ds)
    (h0 : ds = ['0'] → e ≤ 0) : IsUnsigned (positional true ds e) := by
  unfold positional
  split
  · -- below one: zeros come first
    have h := IsUnsigned.mk .zero (.point (hd.zeros_append ((-e).toNat - 1))) .none
    rwa [List.append_nil] at h
  · split
    · -- the point stands among the digits
      next hlen =>
        have whole := hw.take (Nat.succ_pos e.toNat) hlen
        have fraction : IsDigits (ds.drop (e.toNat + 1)) :=
          ⟨by simpa using hlen, fun c hc => hd.2 c (List.mem_of_mem_drop hc)⟩
        have h := IsUnsigned.mk whole (.point fraction) .none
        rwa [List.append_nil] at h
    · -- a whole number
      have whole : IsWhole (ds ++ List.replicate (e.toNat + 1 - ds.length) '0') := by
        refine hw.append_zeros fun hz => ?_
        have he := h0 hz
        rw [hz, List.length_singleton]
        omega
      have point : IsDigits ['0'] := isDigits_toDigits 0
      have h := IsUnsigned.mk whole (.point point) .none
      rwa [List.append_nil] at h

theorem isUnsigned_scientific {e : Int} (hd : IsDigits ds) :
    IsUnsigned (scientific ds e) := by
  obtain ⟨c, s, rfl⟩ := List.exists_cons_of_ne_nil hd.1
  have hc : isDigit c = true := hd.2 c List.mem_cons_self
  have whole : IsWhole [c] := by
    by_cases h : c = '0'
    · rw [h]
      exact .zero
    · exact .digits ⟨by simp, by simpa using hc⟩ (by simpa using h)
  have fraction : IsFraction (if (c :: s).length ≤ 1 then [] else '.' :: s) := by
    split
    · exact .none
    · next h => exact .point ⟨by rintro rfl; simp at h, fun d hd' => hd.2 d (.tail c hd')⟩
  have sign : [if e < 0 then '-' else '+'] = [] ∨ [if e < 0 then '-' else '+'] = ['+'] ∨
      [if e < 0 then '-' else '+'] = ['-'] := by
    split
    · exact .inr (.inr rfl)
    · exact .inr (.inl rfl)
  exact .mk whole fraction (.marked (.inl rfl) sign (isDigits_toDigits _))

end

/-- The zeros at the end of the digits leave at least the first digit. -/
theorem length_zeros_lt {n : Nat} (h : n ≠ 0) :
    ((Nat.toDigits 10 n).reverse.takeWhile (· == '0')).length < (Nat.toDigits 10 n).length := by
  have taken := List.takeWhile_prefix (· == '0') (l := (Nat.toDigits 10 n).reverse)
  refine lt_of_le_of_ne (taken.length_le.trans_eq List.length_reverse) fun hlen => ?_
  have allZero := List.takeWhile_eq_self_iff.mp
    (taken.eq_of_length (hlen.trans List.length_reverse.symm))
  obtain ⟨c, s, hs⟩ := List.exists_cons_of_ne_nil (Nat.toDigits_ne_nil (n := n) (b := 10))
  have hc : c = '0' := by simpa using allZero c (by simp [hs])
  exact head?_toDigits h (by rw [hs, hc]; rfl)

theorem exponent_strip {d : Number} (h : d.strip.digits = 0) : d.strip.exponent = 0 := by
  unfold Number.strip at h ⊢
  dsimp only at h ⊢
  by_cases h0 : d.digits = 0
  · rw [if_pos h0]
  · rw [if_neg h0] at h
    have kept : 10 ^ ((Nat.toDigits 10 d.digits).reverse.takeWhile (· == '0')).length ≤ d.digits := by
      have hlt := length_zeros_lt h0
      generalize ((Nat.toDigits 10 d.digits).reverse.takeWhile (· == '0')).length = zeros at hlt ⊢
      rcases Nat.eq_zero_or_pos zeros with rfl | hpos
      · exact Nat.pos_of_ne_zero h0
      · rw [← Nat.not_lt, ← Nat.length_toDigits_le_iff (by decide) hpos]
        exact Nat.not_le.mpr hlt
    exact absurd h (Nat.div_pos kept (Nat.pow_pos (by decide))).ne'

/-- A shortest decimal that is 0 is written without places. -/
theorem exponent_shortest {tie : Tie} {x : Decimal.Dyadic} (h : (shortest tie x).digits = 0) :
    (shortest tie x).exponent = 0 := by
  unfold shortest at h ⊢
  by_cases h0 : x.mantissa = 0
  · rw [if_pos h0]
  · rw [if_neg h0] at h ⊢
    exact exponent_strip h

theorem isUnsigned_write {d : Number} (h : d.digits = 0 → d.exponent = 0) :
    IsUnsigned (numberLayout.write d) := by
  unfold Layout.write
  dsimp only
  split
  · refine isUnsigned_positional (isWhole_toDigits _) (isDigits_toDigits _) fun h0 => ?_
    have zero : d.digits = 0 := by
      rw [← digitsValue_toDigits d.digits, h0]
      rfl
    rw [h0, h zero]
    decide
  · exact isUnsigned_scientific (isDigits_toDigits _)

/-- **Every double is written as a number literal.** -/
theorem isNumber_writeFloat (x : Float) : IsNumber (numberLayout.writeFloat x) := by
  have size : IsUnsigned (numberLayout.write (shortest numberLayout.tie (.ofFloat x))) :=
    isUnsigned_write exponent_shortest
  unfold Layout.writeFloat
  dsimp only
  split
  · exact .negative size
  · exact .unsigned size

end FractalRender.Json
