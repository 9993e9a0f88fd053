import FractalRender.Json.Data
import FractalRender.Proofs.Json.Codec

/-!
# JSON — names are read the same everywhere

Fractals and palettes are read by name in two ways: a bare text is searched among the identifiers
and other spellings, and a string of JSON is looked up in a table of its own.  Both have the same
names for the same things, and what is written is one of them.

* `choice?_string`: a string is read by the text that it stands for, however it is escaped.
* `namesAgree`: a search that finds what the table lists agrees with it, through texts of JSON.
* `Kind.ofName?_eq_some_iff`, `Palette.ofName?_eq_some_iff`: the search finds what the table lists.
* `names_agree`: both ways of reading, and what is written, for fractals and palettes.
-/

namespace FractalRender

open Json

namespace Json

/-- The text is a string of JSON that stands for `s`: with any escapes in it and any white space
around it. -/
def IsStringText (text s : String) : Prop :=
  ∃ literal, IsText (.string literal) text.toList ∧ text? literal = some s

/-- Every text has a string of JSON that stands for it. -/
theorem isStringText_serialize (s : String) : IsStringText (serialize s) s := by
  refine ⟨escape s.toList, ?_, text?_escape s⟩
  rw [serialize, render, String.toList_ofList]
  exact (wellWritten_ofText s).isValue.isText

/-- **A string is read by the text that it stands for.** -/
theorem choice?_string {β : Type} {names : List (String × β)} {literal : List Char} {s : String}
    (h : text? literal = some s) : choice? names (.string literal) = names.lookup s := by
  rw [choice?, h, Option.bind_some]

/-- A bare text and a string of JSON that stands for it are read as the same value, a text that is
refused is in the error as it was given, and a value is written as its identifier between quotes,
which both ways of reading take back. -/
structure NamesAgree {β ε : Type} [Codec β] (id : β → String) (ofName : String → Except ε β)
    (given : ε → String) : Prop where
  same {s text : String} (h : IsStringText text s) (b : β) :
    ofName s = .ok b ↔ deserialize? text = some b
  refused {s : String} {e : ε} (h : ofName s = .error e) : given e = s
  written (b : β) : serialize b = "\"" ++ id b ++ "\"" ∧ IsStringText (serialize b) (id b)
  back (b : β) : ofName (id b) = .ok b ∧ deserialize? (serialize b) = some b

/-- Names that are read by a table agree with the search that finds what the table lists. -/
theorem namesAgree {β ε : Type} [Codec β] (names : List (String × β)) {id : β → String}
    {ofName : String → Except ε β} {given : ε → String}
    (hdecode : (decode? : Json → Option β) = choice? names)
    (hencode : ∀ b : β, encode b = ofText (id b))
    (hplain : ∀ b, escape (id b).toList = (id b).toList)
    (htable : ∀ m ∈ names, names.lookup m.1 = some m.2)
    (hsearch : ∀ {s b}, ofName s = .ok b ↔ (s, b) ∈ names)
    (hgiven : ∀ {s e}, ofName s = .error e → given e = s) (hid : ∀ b, ofName (id b) = .ok b) :
    NamesAgree id ofName given := by
  have same {s text : String} (h : IsStringText text s) (b : β) :
      ofName s = .ok b ↔ deserialize? text = some b := by
    obtain ⟨literal, htext, hs⟩ := h
    rw [deserialize?, parse?_of_isText htext, Option.bind_some, hdecode, choice?_string hs,
      lookup_eq_some_iff_mem htable, hsearch]
  have written (b : β) : serialize b = serialize (id b) :=
    congrArg render (hencode b)
  have literal (b : β) : IsStringText (serialize b) (id b) :=
    written b ▸ isStringText_serialize (id b)
  refine ⟨same, hgiven, fun b => ⟨?_, literal b⟩, fun b => ?_⟩
  · rw [written]
    show String.ofList (quoted (escape (id b).toList)) = _
    rw [hplain, ← String.toList_inj]
    simp [quoted]
  · exact ⟨hid b, (same (literal b) b).mp (hid b)⟩

end Json

/-! ### Fractals -/

/-- **The search for a fractal's name finds what the table of JSON lists.** -/
theorem Kind.ofName?_eq_some_iff {s : String} {k : Kind} :
    ofName? s = some k ↔ (s, k) ∈ jsonNames := by
  have found : ∀ m ∈ jsonNames, ofName? m.1 = some m.2 := by decide
  refine ⟨fun h => ?_, fun h => found _ h⟩
  rw [ofName?] at h
  split at h
  · next k' hother =>
      cases h
      have other : ∀ m ∈ otherNames, m ∈ jsonNames := by decide
      exact other _ ((lookup_eq_some_iff_mem (by decide)).mp hother)
  · have hid : k.id = s := by simpa using List.find?_some h
    rw [← hid]
    cases k <;> decide

theorem Kind.namesAgree : NamesAgree Kind.id Kind.ofName UnknownKind.name := by
  refine Json.namesAgree jsonNames rfl (fun k => congrArg ofText k.jsonName_eq_id)
    (fun k => by cases k <;> rfl) (by decide) (fun {s k} => ?_) (fun {s e} h => ?_)
    (fun k => by rw [ofName, ofName?_id])
  · rw [← ofName?_eq_some_iff, ofName]
    split <;> simp [*]
  · rw [ofName] at h
    split at h
    · cases h
    · cases h
      rfl

/-- A kernel's name in a compiled module is a name of its fractal. -/
theorem Kind.exportName_mem_jsonNames (k : Kind) : (k.exportName, k) ∈ jsonNames := by
  cases k <;> decide

/-! ### Palettes -/

/-- **The search for a palette's name finds what the table of JSON lists.** -/
theorem Palette.ofName?_eq_some_iff {s : String} {p : Palette} :
    ofName? s = some p ↔ (s, p) ∈ jsonNames := by
  have found : ∀ m ∈ jsonNames, ofName? m.1 = some m.2 := by decide
  refine ⟨fun h => ?_, fun h => found _ h⟩
  unfold ofName? at h
  split at h <;> cases h <;> decide

theorem Palette.namesAgree : NamesAgree Palette.id Palette.ofName UnknownPalette.name := by
  refine Json.namesAgree jsonNames rfl (fun p => congrArg ofText p.jsonName_eq_id)
    (fun p => by cases p <;> rfl) (by decide) (fun {s p} => ?_) (fun {s e} h => ?_)
    (fun p => by rw [ofName, ofName?_id])
  · rw [← ofName?_eq_some_iff, ofName]
    split <;> simp [*]
  · rw [ofName] at h
    split at h
    · cases h
    · cases h
      rfl

/-! ### Both -/

/-- **Names are read the same everywhere.**  Whatever a text is, it is the name of a fractal, or of a
palette, exactly if a string of JSON that stands for it is read as that fractal or palette; a text
that is refused stands in the error unchanged.  What is written is the identifier, and both ways of
reading take it back; they also take the name that a kernel has in compiled modules. -/
theorem names_agree :
    NamesAgree Kind.id Kind.ofName UnknownKind.name ∧
    NamesAgree Palette.id Palette.ofName UnknownPalette.name ∧
    (∀ k : Kind, Kind.ofName k.exportName = .ok k ∧
      ∀ text, IsStringText text k.exportName → deserialize? text = some k) ∧
    ∀ s : String, IsStringText (serialize s) s := by
  refine ⟨Kind.namesAgree, Palette.namesAgree, fun k => ?_, isStringText_serialize⟩
  have found : Kind.ofName k.exportName = .ok k := by
    rw [Kind.ofName, Kind.ofName?_eq_some_iff.mpr k.exportName_mem_jsonNames]
  exact ⟨found, fun text h => (Kind.namesAgree.same h k).mp found⟩

/-- A name with an escape in it and white space around it, and one that belongs to no fractal. -/
theorem names_agree_escaped :
    let text := " \"\\u006boch\"\n"
    IsStringText text "koch" ∧ Kind.ofName "koch" = .ok .koch ∧
      deserialize? text = some Kind.koch ∧
      Kind.ofName "Köch" = .error ⟨"Köch"⟩ ∧
      (deserialize? (serialize "Köch") : Option Kind) = none := by
  obtain ⟨kinds, -, -, literals⟩ := names_agree
  have literal : IsLiteral ['\\', 'u', '0', '0', '6', 'b', 'o', 'c', 'h'] :=
    .hex rfl (.plain (by decide) (by decide) (by decide) (.plain (by decide) (by decide) (by decide)
      (.plain (by decide) (by decide) (by decide) .nil)))
  have padded : IsText _ ([' '] ++ (quoted _ ++ ['\n'])) :=
    .mk (by decide) (.string literal) (by decide)
  have text : IsStringText " \"\\u006boch\"\n" "koch" := ⟨_, padded, rfl⟩
  have refused : Kind.ofName "Köch" = .error ⟨"Köch"⟩ := by rfl
  refine ⟨text, rfl, (kinds.same text .koch).mp rfl, refused,
    Option.eq_none_iff_forall_ne_some.mpr ?_⟩
  intro k hk
  have found := (kinds.same (literals "Köch") k).mpr hk
  rw [refused] at found
  cases found

end FractalRender
