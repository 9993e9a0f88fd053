import FractalRender.Proofs.Json.Grammar

/-!
# JSON — nothing but texts is read

What a reader takes from the front of the characters keeps to the grammar, and the characters are
what it took with what it left behind.  So the grammar is not narrower than the reader: a text is
read as a value exactly if it is a text of it.

* `isLiteral_of_readLiteral?`, `isNumber_of_readNumber?`: strings and numbers.
* `GivesTexts`, `givesTexts`: the three readers, by induction on the bound on their calls.
* `parse?_eq_some_iff`: what a text is read as.
-/

namespace FractalRender.Json

/-! ### White space and literals -/

/-- White space stands in front of what is left when it is skipped. -/
theorem exists_isBlanks_skipBlank (s : List Char) : ∃ w, IsBlanks w ∧ s = w ++ skipBlank s :=
  ⟨s.takeWhile isBlank, fun _ hc => List.mem_takeWhile_imp hc,
    (List.takeWhile_append_dropWhile).symm⟩

/-- White space in front of a character that is none. -/
theorem exists_isBlanks_of_skipBlank {s t : List Char} (h : skipBlank s = t) :
    ∃ w, IsBlanks w ∧ s = w ++ t := h ▸ exists_isBlanks_skipBlank s

theorem isLiteral_of_readLiteral? {s literal rest : List Char}
    (h : readLiteral? s = some (literal, rest)) :
    IsLiteral literal ∧ s = literal ++ '"' :: rest := by
  fun_induction readLiteral? s generalizing literal with
  | case1 => cases h
  | case2 =>
      cases h
      exact ⟨.nil, rfl⟩
  | case3 a b c d s hw ih =>
      obtain ⟨⟨literal, _⟩, hs, ⟨⟩⟩ := Option.map_eq_some_iff.mp h
      obtain ⟨hliteral, rfl⟩ := ih hs
      exact ⟨.hex hw hliteral, rfl⟩
  | case4 => cases h
  | case5 c s _ hc ih =>
      obtain ⟨⟨literal, _⟩, hs, ⟨⟩⟩ := Option.map_eq_some_iff.mp h
      obtain ⟨hliteral, rfl⟩ := ih hs
      exact ⟨.short hc hliteral, rfl⟩
  | case6 => cases h
  | case7 => cases h
  | case8 c s hquote _ _ hplain ih =>
      obtain ⟨⟨literal, _⟩, hs, ⟨⟩⟩ := Option.map_eq_some_iff.mp h
      obtain ⟨hliteral, rfl⟩ := ih hs
      simp only [Bool.or_eq_true, decide_eq_true_eq, not_or, Nat.not_lt] at hplain
      exact ⟨.plain hquote hplain.1 hplain.2 hliteral, rfl⟩

/-! ### Numbers -/

section

variable {s part rest : List Char}

theorem isDigits_of_readDigits? (h : readDigits? s = some (part, rest)) :
    IsDigits part ∧ s = part ++ rest := by
  unfold readDigits? at h
  dsimp only at h
  split at h
  · cases h
  · next hne =>
      cases h
      exact ⟨⟨by simpa using hne, fun _ hc => List.mem_takeWhile_imp hc⟩,
        (List.takeWhile_append_dropWhile).symm⟩

theorem isWhole_of_readWhole? (h : readWhole? s = some (part, rest)) :
    IsWhole part ∧ s = part ++ rest := by
  unfold readWhole? at h
  split at h
  · cases h
    exact ⟨.zero, rfl⟩
  · next hzero =>
      obtain ⟨digits, rfl⟩ := isDigits_of_readDigits? h
      refine ⟨.digits digits fun h0 => ?_, rfl⟩
      obtain ⟨ds, rfl⟩ := List.head?_eq_some_iff.mp h0
      exact hzero _ rfl

theorem isFraction_of_readFraction? (h : readFraction? s = some (part, rest)) :
    IsFraction part ∧ s = part ++ rest := by
  unfold readFraction? at h
  split at h
  · obtain ⟨⟨ds, _⟩, hds, ⟨⟩⟩ := Option.map_eq_some_iff.mp h
    obtain ⟨digits, rfl⟩ := isDigits_of_readDigits? hds
    exact ⟨.point digits, rfl⟩
  · cases h
    exact ⟨.none, rfl⟩

theorem readSign_eq {sign : List Char} (h : readSign s = (sign, rest)) :
    (sign = [] ∨ sign = ['+'] ∨ sign = ['-']) ∧ s = sign ++ rest := by
  unfold readSign at h
  split at h <;> cases h <;> simp

theorem isExponent_of_readExponent? (h : readExponent? s = some (part, rest)) :
    IsExponent part ∧ s = part ++ rest := by
  unfold readExponent? at h
  split at h
  · next mark t =>
      split at h
      · next hmark =>
          rcases hsign : readSign t with ⟨sign, u⟩
          rw [hsign] at h
          obtain ⟨⟨ds, _⟩, hds, ⟨⟩⟩ := Option.map_eq_some_iff.mp h
          obtain ⟨digits, rfl⟩ := isDigits_of_readDigits? hds
          obtain ⟨hs, rfl⟩ := readSign_eq hsign
          refine ⟨.marked (by simpa using hmark) hs digits, ?_⟩
          rw [List.cons_append, List.append_assoc]
      · cases h
        exact ⟨.none, rfl⟩
  · cases h
    exact ⟨.none, rfl⟩

/-- What is read as a number is a number literal. -/
theorem isNumber_of_readNumber? (h : readNumber? s = some (part, rest)) :
    IsNumber part ∧ s = part ++ rest := by
  have parts : ∀ sign t : List Char, (do
      let whole ← readWhole? t
      let fraction ← readFraction? whole.2
      let exponent ← readExponent? fraction.2
      some (sign ++ whole.1 ++ fraction.1 ++ exponent.1, exponent.2)) = some (part, rest) →
        ∃ u, IsUnsigned u ∧ part = sign ++ u ∧ t = u ++ rest := by
    intro sign t ht
    simp only [Option.bind_eq_bind, Option.bind_eq_some_iff] at ht
    obtain ⟨⟨whole, _⟩, hwhole, ⟨fraction, _⟩, hfraction, ⟨exponent, _⟩, hexponent, ⟨⟩⟩ := ht
    obtain ⟨hw, rfl⟩ := isWhole_of_readWhole? hwhole
    obtain ⟨hf, rfl⟩ := isFraction_of_readFraction? hfraction
    obtain ⟨he, rfl⟩ := isExponent_of_readExponent? hexponent
    exact ⟨_, .mk hw hf he, by simp only [List.append_assoc], by simp only [List.append_assoc]⟩
  unfold readNumber? at h
  split at h
  next first t hfirst =>
    split at hfirst
    · cases hfirst
      obtain ⟨u, hu, rfl, rfl⟩ := parts _ _ h
      exact ⟨.negative hu, rfl⟩
    · cases hfirst
      obtain ⟨u, hu, rfl, rfl⟩ := parts _ _ h
      exact ⟨.unsigned hu, rfl⟩

end

/-! ### Keys -/

theorem exists_isKey_of_readKey? {s key rest : List Char} (h : readKey? s = some (key, rest)) :
    ∃ k, IsKey key k ∧ s = k ++ ':' :: rest := by
  unfold readKey? at h
  split at h
  · next t hfirst =>
      obtain ⟨before, hb, rfl⟩ := exists_isBlanks_of_skipBlank hfirst
      split at h
      · cases h
      · next key' left hkey =>
          obtain ⟨hliteral, rfl⟩ := isLiteral_of_readLiteral? hkey
          split at h
          · next hcolon =>
              cases h
              obtain ⟨after, ha, rfl⟩ := exists_isBlanks_of_skipBlank hcolon
              exact ⟨_, .mk hb hliteral ha, by simp [quoted]⟩
          · cases h
  · cases h

/-! ### The three readers -/

/-- What the readers take with calls up to depth `n` keeps to the grammar. -/
structure GivesTexts (n : Nat) : Prop where
  value {s rest : List Char} {j : Json} (h : readValue? n s = some (j, rest)) :
    ∃ w v, IsBlanks w ∧ IsValue j v ∧ s = w ++ (v ++ rest)
  items {s rest : List Char} {items : List Json} (h : readItems? n s = some (items, rest)) :
    ∃ t, IsItems items t ∧ s = t ++ rest
  members {s rest : List Char} {members : List (List Char × Json)}
    (h : readMembers? n s = some (members, rest)) : ∃ t, IsMembers members t ∧ s = t ++ rest

theorem givesTexts_zero : GivesTexts 0 where
  value h := by cases h
  items h := by cases h
  members h := by cases h

/-- A value that is read is a text with the white space up to what follows. -/
theorem GivesTexts.text {n : Nat} (ih : GivesTexts n) {s left rest : List Char} {j : Json}
    (h : readValue? n s = some (j, left)) (hleft : skipBlank left = rest) :
    ∃ t, IsText j t ∧ s = t ++ rest := by
  obtain ⟨before, v, hb, hv, rfl⟩ := ih.value h
  obtain ⟨after, ha, rfl⟩ := exists_isBlanks_of_skipBlank hleft
  exact ⟨_, .mk hb hv ha, by simp only [List.append_assoc]⟩

theorem isItems_of_readItems? {n : Nat} (ih : GivesTexts n) {s rest : List Char}
    {items : List Json} (h : readItems? (n + 1) s = some (items, rest)) :
    ∃ t, IsItems items t ∧ s = t ++ rest := by
  rw [readItems?] at h
  split at h
  · cases h
  · next j left hj =>
      split at h
      · next hcomma =>
          obtain ⟨text, htext, rfl⟩ := ih.text hj hcomma
          obtain ⟨⟨others, _⟩, hothers, ⟨⟩⟩ := Option.map_eq_some_iff.mp h
          obtain ⟨t, ht, rfl⟩ := ih.items hothers
          exact ⟨_, .next htext ht, by simp⟩
      · next hend =>
          obtain ⟨text, htext, rfl⟩ := ih.text hj hend
          cases h
          exact ⟨_, .last htext, by simp⟩
      · cases h

theorem isMembers_of_readMembers? {n : Nat} (ih : GivesTexts n) {s rest : List Char}
    {members : List (List Char × Json)} (h : readMembers? (n + 1) s = some (members, rest)) :
    ∃ t, IsMembers members t ∧ s = t ++ rest := by
  rw [readMembers?] at h
  split at h
  · cases h
  · next key after hkey =>
      obtain ⟨k, hk, rfl⟩ := exists_isKey_of_readKey? hkey
      split at h
      · cases h
      · next j left hj =>
          split at h
          · next hcomma =>
              obtain ⟨text, htext, rfl⟩ := ih.text hj hcomma
              obtain ⟨⟨others, _⟩, hothers, ⟨⟩⟩ := Option.map_eq_some_iff.mp h
              obtain ⟨t, ht, rfl⟩ := ih.members hothers
              exact ⟨_, .next hk htext ht, by simp⟩
          · next hend =>
              obtain ⟨text, htext, rfl⟩ := ih.text hj hend
              cases h
              exact ⟨_, .last hk htext, by simp⟩
          · cases h

theorem isValue_of_readValue? {n : Nat} (ih : GivesTexts n) {s rest : List Char} {j : Json}
    (h : readValue? (n + 1) s = some (j, rest)) :
    ∃ w v, IsBlanks w ∧ IsValue j v ∧ s = w ++ (v ++ rest) := by
  rw [readValue?] at h
  obtain ⟨w, hw, hs⟩ := exists_isBlanks_skipBlank s
  suffices ∃ v, IsValue j v ∧ skipBlank s = v ++ rest by
    obtain ⟨v, hv, heq⟩ := this
    exact ⟨w, v, hw, hv, heq ▸ hs⟩
  split at h
  · next hfirst =>
      cases h
      exact ⟨_, .null, hfirst⟩
  · next hfirst =>
      cases h
      exact ⟨_, .boolTrue, hfirst⟩
  · next hfirst =>
      cases h
      exact ⟨_, .boolFalse, hfirst⟩
  · next hfirst =>
      obtain ⟨⟨literal, _⟩, hliteral, ⟨⟩⟩ := Option.map_eq_some_iff.mp h
      obtain ⟨hl, rfl⟩ := isLiteral_of_readLiteral? hliteral
      exact ⟨_, .string hl, by simp [hfirst, quoted]⟩
  · next t hfirst =>
      rw [hfirst]
      split at h
      · next hend =>
          cases h
          obtain ⟨blanks, hb, rfl⟩ := exists_isBlanks_of_skipBlank hend
          exact ⟨_, .noItems hb, by simp⟩
      · obtain ⟨⟨items, _⟩, hitems, ⟨⟩⟩ := Option.map_eq_some_iff.mp h
        obtain ⟨u, hu, rfl⟩ := ih.items hitems
        exact ⟨_, .array hu, rfl⟩
  · next t hfirst =>
      rw [hfirst]
      split at h
      · next hend =>
          cases h
          obtain ⟨blanks, hb, rfl⟩ := exists_isBlanks_of_skipBlank hend
          exact ⟨_, .noMembers hb, by simp⟩
      · obtain ⟨⟨members, _⟩, hmembers, ⟨⟩⟩ := Option.map_eq_some_iff.mp h
        obtain ⟨u, hu, rfl⟩ := ih.members hmembers
        exact ⟨_, .object hu, rfl⟩
  · obtain ⟨⟨literal, _⟩, hliteral, ⟨⟩⟩ := Option.map_eq_some_iff.mp h
    obtain ⟨hn, heq⟩ := isNumber_of_readNumber? hliteral
    exact ⟨_, .number hn, heq⟩

/-- By induction on the bound: each reader calls the others with one call less. -/
theorem givesTexts : ∀ n, GivesTexts n
  | 0 => givesTexts_zero
  | n + 1 => ⟨isValue_of_readValue? (givesTexts n), isItems_of_readItems? (givesTexts n),
      isMembers_of_readMembers? (givesTexts n)⟩

/-- **What a text is read as**: the value that it is a text of, and nothing if it is a text of
none. -/
theorem parse?_eq_some_iff {j : Json} {text : String} :
    parse? text = some j ↔ IsText j text.toList := by
  refine ⟨fun h => ?_, parse?_of_isText⟩
  unfold parse? at h
  dsimp only at h
  split at h
  · next left hread =>
      split at h
      · next hend =>
          cases h
          obtain ⟨t, ht, hs⟩ := (givesTexts _).text hread (List.isEmpty_iff.mp hend)
          rw [hs, List.append_nil]
          exact ht
      · cases h
  · cases h

end FractalRender.Json
