import FractalRender.Proofs.Json.Number
import FractalRender.Proofs.Json.Text
import FractalRender.Json.Printer

/-!
# JSON — the grammar of texts

`IsText j s` says that the characters `s` are a text of the value `j`: the value as it may be
written, with any white space between its parts and around it.  The reader takes every such text and
gives its value.  The readers call one another, so what they do is stated of all three at once, by
induction on the bound on their calls.

* `TakesTexts`: the three readers take what the grammar allows.
* `takesTexts`: they do under every bound.
* `parse?_of_isText`: a text is read as the value that it is a text of.
-/

namespace FractalRender.Json

/-- Nothing but white space. -/
def IsBlanks (s : List Char) : Prop := ∀ c ∈ s, isBlank c = true

instance (s : List Char) : Decidable (IsBlanks s) :=
  List.decidableBAll (fun c => isBlank c = true) s

/-- A key between quotes, with white space around it. -/
inductive IsKey (key : List Char) : List Char → Prop where
  | mk {before after : List Char} (hb : IsBlanks before) (h : IsLiteral key)
      (ha : IsBlanks after) : IsKey key (before ++ (quoted key ++ after))

mutual

/-- A value with white space around it. -/
inductive IsText : Json → List Char → Prop where
  | mk {j : Json} {before s after : List Char} (hb : IsBlanks before) (h : IsValue j s)
      (ha : IsBlanks after) : IsText j (before ++ (s ++ after))

/-- A value from its first character to its last. -/
inductive IsValue : Json → List Char → Prop where
  | null : IsValue .null ['n', 'u', 'l', 'l']
  | boolTrue : IsValue (.bool true) ['t', 'r', 'u', 'e']
  | boolFalse : IsValue (.bool false) ['f', 'a', 'l', 's', 'e']
  | number {literal : List Char} (h : IsNumber literal) : IsValue (.number literal) literal
  | string {literal : List Char} (h : IsLiteral literal) :
      IsValue (.string literal) (quoted literal)
  | noItems {s : List Char} (h : IsBlanks s) : IsValue (.array []) ('[' :: (s ++ [']']))
  | array {items : List Json} {s : List Char} (h : IsItems items s) :
      IsValue (.array items) ('[' :: s)
  | noMembers {s : List Char} (h : IsBlanks s) : IsValue (.object []) ('{' :: (s ++ ['}']))
  | object {members : List (List Char × Json)} {s : List Char} (h : IsMembers members s) :
      IsValue (.object members) ('{' :: s)

/-- Items with commas between them, and the end of the array. -/
inductive IsItems : List Json → List Char → Prop where
  | last {j : Json} {s : List Char} (h : IsText j s) : IsItems [j] (s ++ [']'])
  | next {j : Json} {items : List Json} {s rest : List Char} (h : IsText j s)
      (hr : IsItems items rest) : IsItems (j :: items) (s ++ ',' :: rest)

/-- Members with commas between them, and the end of the object. -/
inductive IsMembers : List (List Char × Json) → List Char → Prop where
  | last {key k : List Char} {j : Json} {s : List Char} (hk : IsKey key k) (h : IsText j s) :
      IsMembers [(key, j)] (k ++ ':' :: (s ++ ['}']))
  | next {key k : List Char} {j : Json} {members : List (List Char × Json)} {s rest : List Char}
      (hk : IsKey key k) (h : IsText j s) (hr : IsMembers members rest) :
      IsMembers ((key, j) :: members) (k ++ ':' :: (s ++ ',' :: rest))

end

/-! ### White space -/

theorem isBlanks_nil : IsBlanks [] := nofun

theorem skipBlank_cons {c : Char} (s : List Char) (h : isBlank c = false) :
    skipBlank (c :: s) = c :: s := by
  rw [skipBlank, List.dropWhile_cons, h, if_neg Bool.false_ne_true]

/-- White space in front is skipped. -/
theorem skipBlank_append {w : List Char} (hw : IsBlanks w) (s : List Char) :
    skipBlank (w ++ s) = skipBlank s :=
  List.dropWhile_append_of_pos hw

/-- White space up to a character that is none is skipped. -/
theorem skipBlank_append_cons {w : List Char} (hw : IsBlanks w) {c : Char} (s : List Char)
    (hc : isBlank c = false) : skipBlank (w ++ c :: s) = c :: s := by
  rw [skipBlank_append hw, skipBlank_cons s hc]

/-- White space ends a number. -/
theorem endsNumber_of_isBlank {c : Char} (s : List Char) (h : isBlank c = true) :
    EndsNumber (c :: s) := by
  refine endsNumber_cons s ?_
  simp only [isBlank, Bool.or_eq_true, beq_iff_eq] at h
  obtain ((rfl | rfl) | rfl) | rfl := h <;> decide

theorem endsNumber_append {w s : List Char} (hw : IsBlanks w) (hs : EndsNumber s) :
    EndsNumber (w ++ s) := by
  cases w with
  | nil => exact hs
  | cons c w => exact endsNumber_of_isBlank _ (hw c List.mem_cons_self)

/-! ### What a value starts with -/

/-- A number literal starts with a sign or a digit. -/
theorem IsNumber.head {literal : List Char} (h : IsNumber literal) :
    ∃ c s, literal = c :: s ∧ ∀ d, d ≠ '-' → isDigit d = false → c ≠ d := by
  cases h with
  | unsigned h =>
      obtain ⟨c, s, rfl, hc⟩ := h.head
      refine ⟨c, s, rfl, fun d _ hd => ?_⟩
      rintro rfl
      rw [hc] at hd
      cases hd
  | negative h => exact ⟨'-', _, rfl, fun d hd _ => hd.symm⟩

/-- No value starts with white space or with the end of an array. -/
theorem IsValue.head {j : Json} {s : List Char} (h : IsValue j s) :
    ∃ c t, s = c :: t ∧ isBlank c = false ∧ c ≠ ']' := by
  cases h with
  | number h =>
      obtain ⟨c, t, rfl, hc⟩ := h.head
      refine ⟨c, t, rfl, ?_, hc _ (by decide) rfl⟩
      simp [isBlank, hc ' ' (by decide) rfl, hc '\n' (by decide) rfl, hc '\t' (by decide) rfl,
        hc '\r' (by decide) rfl]
  | _ => exact ⟨_, _, rfl, rfl, by decide⟩

/-- The items of an array do not start with its end, whatever white space comes first. -/
theorem IsText.skipBlank {j : Json} {s : List Char} (h : IsText j s) (rest : List Char) :
    ∃ c t, skipBlank (s ++ rest) = c :: t ∧ c ≠ ']' := by
  obtain @⟨_, before, s, after, hb, h, ha⟩ := h
  obtain ⟨c, t, rfl, hblank, hend⟩ := h.head
  refine ⟨c, t ++ (after ++ rest), ?_, hend⟩
  rw [List.append_assoc, List.append_assoc, List.cons_append, skipBlank_append_cons hb _ hblank]

theorem IsItems.skipBlank {items : List Json} {s : List Char} (h : IsItems items s)
    (rest : List Char) : ∃ c t, Json.skipBlank (s ++ rest) = c :: t ∧ c ≠ ']' := by
  cases h with
  | last h =>
      rw [List.append_assoc]
      exact h.skipBlank _
  | next h =>
      rw [List.append_assoc]
      exact h.skipBlank _

/-- The members of an object start with a quote, whatever white space comes first. -/
theorem IsMembers.skipBlank {members : List (List Char × Json)} {s : List Char}
    (h : IsMembers members s) (rest : List Char) : ∃ t, Json.skipBlank (s ++ rest) = '"' :: t := by
  have key {key k : List Char} (hk : IsKey key k) (u : List Char) :
      ∃ t, Json.skipBlank (k ++ u) = '"' :: t := by
    obtain ⟨hb, -, -⟩ := hk
    rw [List.append_assoc, quoted, List.cons_append, List.cons_append,
      skipBlank_append_cons hb _ rfl]
    exact ⟨_, rfl⟩
  cases h with
  | last hk =>
      rw [List.append_assoc]
      exact key hk _
  | next hk =>
      rw [List.append_assoc]
      exact key hk _

/-! ### The three readers -/

/-- With calls up to depth `n` the readers take what the grammar allows, if twice its length is at
most `n`. -/
structure TakesTexts (n : Nat) : Prop where
  /-- A number is read up to what ends it; nothing else needs anything of what follows. -/
  value {j : Json} {w s : List Char} (rest : List Char) (hw : IsBlanks w) (h : IsValue j s)
    (hn : 2 * s.length ≤ n) (hr : EndsNumber rest) :
    readValue? n (w ++ (s ++ rest)) = some (j, rest)
  items {items : List Json} {s : List Char} (rest : List Char) (h : IsItems items s)
    (hn : 2 * s.length ≤ n) : readItems? n (s ++ rest) = some (items, rest)
  members {members : List (List Char × Json)} {s : List Char} (rest : List Char)
    (h : IsMembers members s) (hn : 2 * s.length ≤ n) :
    readMembers? n (s ++ rest) = some (members, rest)

theorem takesTexts_zero : TakesTexts 0 where
  value _ _ h hn _ := by
    obtain ⟨c, t, rfl, -⟩ := h.head
    simp at hn
  items _ h hn := by cases h <;> simp at hn
  members _ h hn := by cases h <;> simp at hn

/-- A text is read with the white space in front; what follows its value is left. -/
theorem TakesTexts.text {n : Nat} (ih : TakesTexts n) {j : Json} {s : List Char} (h : IsText j s)
    {c : Char} (rest : List Char) (hc : isDigit c = false ∧ c ≠ '.' ∧ c ≠ 'e' ∧ c ≠ 'E')
    (hblank : isBlank c = false) (hn : 2 * s.length ≤ n) :
    ∃ left, readValue? n (s ++ c :: rest) = some (j, left) ∧ skipBlank left = c :: rest := by
  obtain @⟨_, before, s, after, hb, h, ha⟩ := h
  refine ⟨after ++ c :: rest, ?_, skipBlank_append_cons ha rest hblank⟩
  rw [List.append_assoc, List.append_assoc]
  refine ih.value _ hb h ?_ (endsNumber_append ha (endsNumber_cons rest hc))
  simp only [List.length_append] at hn
  omega

theorem readItems?_succ {n : Nat} (ih : TakesTexts n) {items : List Json} {s : List Char}
    (rest : List Char) (h : IsItems items s) (hn : 2 * s.length ≤ n + 1) :
    readItems? (n + 1) (s ++ rest) = some (items, rest) := by
  cases h with
  | last h =>
      obtain ⟨left, read, skipped⟩ := ih.text h rest (c := ']') (by decide) rfl
        (by simp only [List.length_append, List.length_singleton] at hn; omega)
      rw [List.append_assoc, List.singleton_append, readItems?, read]
      simp only [skipped]
  | @next j items s t h ht =>
      simp only [List.length_append, List.length_cons] at hn
      obtain ⟨left, read, skipped⟩ := ih.text h (t ++ rest) (c := ',') (by decide) rfl (by omega)
      rw [List.append_assoc, List.cons_append, readItems?, read]
      simp only [skipped, ih.items rest ht (by omega), Option.map_some]

/-- A key is read with its colon. -/
theorem readKey?_append {key k : List Char} (hk : IsKey key k) (rest : List Char) :
    readKey? (k ++ ':' :: rest) = some (key, rest) := by
  obtain @⟨before, after, hb, h, ha⟩ := hk
  unfold readKey?
  rw [List.append_assoc, quoted, List.cons_append, List.cons_append,
    skipBlank_append_cons hb _ rfl, List.append_assoc, List.append_assoc, List.singleton_append]
  simp only [readLiteral?_append h, skipBlank_append_cons ha _ (show isBlank ':' = false from rfl)]

theorem readMembers?_succ {n : Nat} (ih : TakesTexts n) {members : List (List Char × Json)}
    {s : List Char} (rest : List Char) (h : IsMembers members s) (hn : 2 * s.length ≤ n + 1) :
    readMembers? (n + 1) (s ++ rest) = some (members, rest) := by
  cases h with
  | last hk h =>
      simp only [List.length_append, List.length_cons, List.length_nil] at hn
      obtain ⟨left, read, skipped⟩ := ih.text h rest (c := '}') (by decide) rfl (by omega)
      rw [List.append_assoc, List.cons_append, List.append_assoc, List.singleton_append,
        readMembers?, readKey?_append hk]
      simp only [read, skipped]
  | @next key k j members s t hk h ht =>
      simp only [List.length_append, List.length_cons] at hn
      obtain ⟨left, read, skipped⟩ := ih.text h (t ++ rest) (c := ',') (by decide) rfl (by omega)
      rw [List.append_assoc, List.cons_append, List.append_assoc, List.cons_append,
        readMembers?, readKey?_append hk]
      simp only [read, skipped, ih.members rest ht (by omega), Option.map_some]

theorem readValue?_succ {n : Nat} (ih : TakesTexts n) {j : Json} {w s : List Char}
    (rest : List Char) (hw : IsBlanks w) (h : IsValue j s) (hn : 2 * s.length ≤ n + 1)
    (hr : EndsNumber rest) : readValue? (n + 1) (w ++ (s ++ rest)) = some (j, rest) := by
  have skipped : skipBlank (w ++ (s ++ rest)) = s ++ rest := by
    obtain ⟨c, t, rfl, hblank, -⟩ := h.head
    rw [List.cons_append, skipBlank_append_cons hw _ hblank]
  rw [readValue?, skipped]
  cases h with
  | null | boolTrue | boolFalse => rfl
  | number h =>
      obtain ⟨c, t, rfl, hne⟩ := h.head
      have read := readNumber?_append h hr
      have fresh : ∀ d u, d ≠ '-' → isDigit d = false → c :: t ++ rest ≠ d :: u := by
        rintro d u hd hd' ⟨⟩
        exact hne c hd hd' rfl
      split
      -- a sign or a digit starts a number and nothing else
      case h_7 => rw [read, Option.map_some]
      all_goals
        next hfirst => exact absurd hfirst (fresh _ _ (by decide) rfl)
  | string h =>
      rw [quoted, List.cons_append, List.append_assoc]
      simp only [List.singleton_append, readLiteral?_append h, Option.map_some]
  | noItems h =>
      rw [List.cons_append, List.append_assoc, List.singleton_append]
      simp only [skipBlank_append_cons h _ (show isBlank ']' = false from rfl)]
  | array h =>
      obtain ⟨c, t, first, hend⟩ := h.skipBlank rest
      rw [List.length_cons] at hn
      simp only [List.cons_append, first, ih.items rest h (by omega), Option.map_some]
      split
      · next hfirst =>
          cases hfirst
          exact absurd rfl hend
      · rfl
  | noMembers h =>
      rw [List.cons_append, List.append_assoc, List.singleton_append]
      simp only [skipBlank_append_cons h _ (show isBlank '}' = false from rfl)]
  | object h =>
      obtain ⟨t, first⟩ := h.skipBlank rest
      rw [List.length_cons] at hn
      simp only [List.cons_append, first, ih.members rest h (by omega), Option.map_some]
      rfl

/-- By induction on the bound: each reader calls the others with one call less. -/
theorem takesTexts : ∀ n, TakesTexts n
  | 0 => takesTexts_zero
  | n + 1 => ⟨readValue?_succ (takesTexts n), readItems?_succ (takesTexts n),
      readMembers?_succ (takesTexts n)⟩

/-- **A text is read as the value that it is a text of**, with any white space. -/
theorem parse?_of_isText {j : Json} {text : String} (h : IsText j text.toList) :
    parse? text = some j := by
  generalize htext : text.toList = s at h
  obtain @⟨_, before, s, after, hb, h, ha⟩ := h
  have ends : EndsNumber after := by simpa using endsNumber_append ha endsNumber_nil
  have blank : skipBlank after = [] := List.dropWhile_eq_nil_iff.mpr ha
  have read := (takesTexts (2 * (before ++ (s ++ after)).length + 2)).value after hb h
    (by simp only [List.length_append]; omega) ends
  simp only [parse?, htext, read, blank]
  rfl

end FractalRender.Json
