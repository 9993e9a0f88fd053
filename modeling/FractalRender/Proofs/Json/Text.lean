import FractalRender.Json.Reader

/-!
# JSON — string literals

`IsLiteral` is the grammar of what may stand between quotes.  The reader takes such a literal up
to its closing quote, and the literal of a text stands for that text, whatever its characters.

* `readLiteral?_append`: a literal is read up to its closing quote.
* `isLiteral_escape`: text is written as a literal.
* `text?_escape`: the literal of a text stands for it.
-/

namespace FractalRender.Json

/-- What may stand between quotes. -/
inductive IsLiteral : List Char → Prop where
  | nil : IsLiteral []
  | plain {c : Char} {s : List Char} (hquote : c ≠ '"') (hslash : c ≠ '\\')
      (hcontrol : 0x20 ≤ c.toNat) (hs : IsLiteral s) : IsLiteral (c :: s)
  | short {c : Char} {s : List Char} (hc : (shortEscape? c).isSome = true) (hs : IsLiteral s) :
      IsLiteral ('\\' :: c :: s)
  | hex {a b c d : Char} {s : List Char} (hw : (hexWord? a b c d).isSome = true)
      (hs : IsLiteral s) : IsLiteral ('\\' :: 'u' :: a :: b :: c :: d :: s)

/-- **A literal is read up to its closing quote.** -/
theorem readLiteral?_append {s : List Char} (h : IsLiteral s) (rest : List Char) :
    readLiteral? (s ++ '"' :: rest) = some (s, rest) := by
  induction h with
  | nil => rfl
  | @plain c s hquote hslash hcontrol hs ih =>
      rw [List.cons_append, readLiteral?, ih]
      · rw [if_neg (by simpa [hslash] using hcontrol), Option.map_some]
      all_goals simp_all
  | @short c s hc hs ih =>
      rw [List.cons_append, List.cons_append, readLiteral?, if_pos hc, ih, Option.map_some]
      intros
      simp_all [shortEscape?]
  | hex hw hs ih =>
      simp only [List.cons_append]
      rw [readLiteral?, if_pos hw, ih, Option.map_some]

/-! ### The literal of a text -/

theorem hexValue?_hexDigit : ∀ {d : Nat}, d < 16 → hexValue? (hexDigit d) = some d := by decide

theorem hexWord?_hexDigit {n : Nat} (h : n < 0x20) :
    hexWord? '0' '0' (hexDigit (n / 16)) (hexDigit (n % 16)) = some n := by
  have zero : hexValue? '0' = some 0 := rfl
  simp only [hexWord?, zero, hexValue?_hexDigit (show n / 16 < 16 by omega),
    hexValue?_hexDigit (Nat.mod_lt n (by decide : 16 > 0)), Option.bind_eq_bind, Option.bind_some,
    Option.some.injEq]
  omega

/-- How a character is written: by an escape of its own, as a control character by its number,
or as it is. -/
theorem escapeChar_cases (c : Char) :
    (∃ d, escapeChar c = ['\\', d] ∧ shortEscape? d = some c ∧ d ≠ 'u') ∨
      (c.toNat < 0x20 ∧ escapeChar c =
        ['\\', 'u', '0', '0', hexDigit (c.toNat / 16), hexDigit (c.toNat % 16)]) ∨
      (c ≠ '"' ∧ c ≠ '\\' ∧ 0x20 ≤ c.toNat ∧ escapeChar c = [c]) := by
  unfold escapeChar
  split
  iterate 7 exact .inl ⟨_, rfl, rfl, by decide⟩
  · next hquote hslash _ _ _ _ _ =>
      split
      · next hc => exact .inr (.inl ⟨hc, rfl⟩)
      · next hc => exact .inr (.inr ⟨hquote, hslash, Nat.not_lt.mp hc, rfl⟩)

theorem isLiteral_escape (s : List Char) : IsLiteral (escape s) := by
  induction s with
  | nil => exact .nil
  | cons c s ih =>
      show IsLiteral (escapeChar c ++ escape s)
      obtain ⟨d, he, hd, _⟩ | ⟨hc, he⟩ | ⟨hquote, hslash, hc, he⟩ := escapeChar_cases c
      · rw [he]
        exact .short (by rw [hd]; rfl) ih
      · rw [he]
        exact .hex (by rw [hexWord?_hexDigit hc]; rfl) ih
      · rw [he]
        exact .plain hquote hslash hc ih

theorem unescape?_escapeChar (c : Char) (s : List Char) :
    unescape? (escapeChar c ++ s) = (unescape? s).map (c :: ·) := by
  obtain ⟨d, he, hd, hu⟩ | ⟨hc, he⟩ | ⟨_, hslash, _, he⟩ := escapeChar_cases c
  · rw [he, List.cons_append, List.cons_append, List.nil_append, unescape?, hd]
    simp_all
  · have low : isLowSurrogate c.toNat = false := by
      simp only [isLowSurrogate, Bool.and_eq_false_iff, decide_eq_false_iff_not]
      omega
    have high : isHighSurrogate c.toNat = false := by
      simp only [isHighSurrogate, Bool.and_eq_false_iff, decide_eq_false_iff_not]
      omega
    rw [he]
    simp only [List.cons_append, List.nil_append]
    rw [unescape?, hexWord?_hexDigit hc]
    simp only [low, high, Bool.false_eq_true, if_false, Char.ofNat_toNat]
  · rw [he, List.cons_append, List.nil_append, unescape?, if_neg hslash]
    all_goals simp_all

theorem unescape?_escape (s : List Char) : unescape? (escape s) = some s := by
  induction s with
  | nil => rfl
  | cons c s ih =>
      show unescape? (escapeChar c ++ escape s) = some (c :: s)
      rw [unescape?_escapeChar, ih, Option.map_some]

/-- **The literal of a text stands for it**, whatever its characters. -/
theorem text?_escape (s : String) : text? (escape s.toList) = some s := by
  rw [text?, unescape?_escape, Option.map_some, String.ofList_toList]

end FractalRender.Json
