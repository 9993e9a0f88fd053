import FractalRender.Proofs.Json.Reading
import FractalRender.Json.Codec

/-!
# JSON — codecs that read back what they write

A double is written only when it is finite, and whether its digits read back as the same double
is a matter of that double.  So the doubles in a value decide whether the value is read back: a
codec is lawful if it reads a value back when all of them are finite and read back, and refuses
its own text when one is not finite.

* `HasDoubles`, `AllFinite`, `Readable`: the doubles in a value and what is asked of them.
* `LawfulCodec`: the law, and that what is written keeps to the grammar of JSON.
* `fields?_record`: the fields of a record are found by their names.
* `choice?_ofText`: a name is looked up among the names.
-/

namespace FractalRender.Json

/-- The digits of a double read as that double. -/
def ReadsBack (x : Float) : Prop := double? (numberLayout.writeFloat x) = some x

instance (x : Float) : Decidable (ReadsBack x) := inferInstanceAs (Decidable (_ = _))

/-- A type whose values hold doubles. -/
class HasDoubles (β : Type) where
  /-- The doubles in a value. -/
  doubles : β → List Float

export HasDoubles (doubles)

/-- All doubles in a value are finite. -/
def AllFinite {β : Type} [HasDoubles β] (b : β) : Prop := ∀ x ∈ doubles b, x.isFinite = true

/-- All doubles in a value are finite and read back. -/
def Readable {β : Type} [HasDoubles β] (b : β) : Prop :=
  ∀ x ∈ doubles b, x.isFinite = true ∧ ReadsBack x

instance {β : Type} [HasDoubles β] (b : β) : Decidable (AllFinite b) :=
  inferInstanceAs (Decidable (∀ x ∈ doubles b, x.isFinite = true))

theorem Readable.of_nil {β : Type} [HasDoubles β] {b : β} (h : doubles b = []) : Readable b := by
  intro x hx
  rw [h] at hx
  cases hx

/-- A codec that reads back what it writes, up to its doubles. -/
class LawfulCodec (β : Type) [Codec β] [HasDoubles β] : Prop where
  wellWritten_encode (b : β) : (encode b).WellWritten
  decode?_encode {b : β} (h : Readable b) : decode? (encode b) = some b
  decode?_encode_eq_none {b : β} (h : ¬ AllFinite b) : decode? (encode b) = (none : Option β)

export LawfulCodec (wellWritten_encode decode?_encode decode?_encode_eq_none)

/-- Well-written text is read as the value it was written for. -/
theorem deserialize?_serialize {β : Type} [Codec β] {b : β} (h : (encode b).WellWritten) :
    deserialize? (serialize b) = (decode? (encode b) : Option β) := by
  rw [deserialize?, serialize, parse?_render h, Option.bind_some]

/-! ### Plain types -/

theorem wellWritten_ofText (s : String) : (ofText s).WellWritten := .string (isLiteral_escape _)

theorem asText?_ofText (s : String) : asText? (ofText s) = some s := text?_escape s

instance : HasDoubles Bool := ⟨fun _ => []⟩

instance : LawfulCodec Bool where
  wellWritten_encode := .bool
  decode?_encode _ := rfl
  decode?_encode_eq_none h := (h nofun).elim

instance : HasDoubles UInt32 := ⟨fun _ => []⟩

instance : LawfulCodec UInt32 where
  wellWritten_encode n := .number (isNumber_toDigits n.toNat)
  decode?_encode _ := word?_toDigits _
  decode?_encode_eq_none h := (h nofun).elim

instance : HasDoubles Float := ⟨fun x => [x]⟩

instance : LawfulCodec Float where
  wellWritten_encode x := by
    show (if x.isFinite then Json.number (numberLayout.writeFloat x) else .null).WellWritten
    split
    · exact .number (isNumber_writeFloat x)
    · exact .null
  decode?_encode {x} h := by
    obtain ⟨finite, back⟩ := h x List.mem_cons_self
    show decode? (if x.isFinite then Json.number (numberLayout.writeFloat x) else .null) = some x
    rw [if_pos finite]
    exact back
  decode?_encode_eq_none {x} h := by
    have infinite : ¬ x.isFinite = true := fun hx => h fun y hy => by
      rwa [List.mem_singleton.mp hy]
    show decode? (if x.isFinite then Json.number (numberLayout.writeFloat x) else .null) = none
    rw [if_neg infinite]
    rfl

/-! ### Records -/

theorem wellWritten_record {fields : List (String × Json)}
    (h : ∀ f ∈ fields, f.2.WellWritten) : (record fields).WellWritten := by
  refine .object ?_ ?_
  · intro m hm
    obtain ⟨f, _, rfl⟩ := List.mem_map.mp hm
    exact isLiteral_escape _
  · intro m hm
    obtain ⟨f, hf, rfl⟩ := List.mem_map.mp hm
    exact h f hf

theorem mapM_eq_map {α β : Type} {f : α → Option β} {g : α → β} {l : List α}
    (h : ∀ a ∈ l, f a = some (g a)) : l.mapM f = some (l.map g) := by
  induction l with
  | nil => rfl
  | cons a l ih =>
      rw [List.mapM_cons, h a List.mem_cons_self, ih fun b hb => h b (.tail a hb)]
      rfl

theorem filter_eq_lookup {fields : List (String × Json)} (h : (fields.map Prod.fst).Nodup)
    (name : String) : fields.filter (fun m => m.1 == name) =
      ((fields.lookup name).map fun value => (name, value)).toList := by
  induction fields with
  | nil => rfl
  | cons f fields ih =>
      obtain ⟨key, value⟩ := f
      obtain ⟨fresh, h⟩ := List.nodup_cons.mp h
      by_cases hkey : key = name
      · subst hkey
        have others : fields.filter (fun m => m.1 == key) = [] := by
          refine List.filter_eq_nil_iff.mpr fun m hm => ?_
          rw [beq_iff_eq]
          rintro rfl
          exact fresh (List.mem_map.mpr ⟨m, hm, rfl⟩)
        rw [List.filter_cons_of_pos (by simp), others, List.lookup_cons_self]
        rfl
      · have unlike : (name == key) = false := beq_eq_false_iff_ne.mpr (Ne.symm hkey)
        rw [List.filter_cons_of_neg (by simpa using hkey), ih h, List.lookup_cons, unlike]

theorem onlyValue?_eq {fields : List (String × Json)} (h : (fields.map Prod.fst).Nodup)
    (name : String) : onlyValue? fields name = some (fields.lookup name) := by
  rw [onlyValue?, filter_eq_lookup h]
  cases fields.lookup name <;> rfl

theorem keyed?_record (fields : List (String × Json)) :
    keyed? (fields.map fun (name, value) => (escape name.toList, value)) = some fields := by
  rw [keyed?, List.mapM_map]
  exact (mapM_eq_map (g := id) fun f _ => by simp [text?_escape]).trans (by simp)

/-- **The fields of a record are found by their names.** -/
theorem fields?_record {names : List String} {fields : List (String × Json)}
    (h : (fields.map Prod.fst).Nodup) :
    fields? names (record fields) = some (names.map fun name => fields.lookup name) := by
  show (keyed? _).bind _ = _
  rw [keyed?_record, Option.bind_some]
  exact mapM_eq_map fun name _ => onlyValue?_eq h name

section

variable {β : Type} [Codec β] [HasDoubles β] [LawfulCodec β] {b : β}

theorem required?_encode_of_nil (b : β) (h : doubles b = []) :
    required? (some (encode b)) = some b := decode?_encode (.of_nil h)

theorem optional?_encode_of_nil (b : β) {standard : β} (h : doubles b = []) :
    optional? standard (some (encode b)) = some b := decode?_encode (.of_nil h)

theorem required?_encode (h : Readable b) : required? (some (encode b)) = some b :=
  decode?_encode h

theorem required?_encode_eq_none (h : ¬ AllFinite b) :
    required? (some (encode b)) = (none : Option β) := decode?_encode_eq_none h

theorem optional?_encode {standard : β} (h : Readable b) :
    optional? standard (some (encode b)) = some b := decode?_encode h

theorem optional?_encode_eq_none {standard : β} (h : ¬ AllFinite b) :
    optional? standard (some (encode b)) = none := decode?_encode_eq_none h

end

/-! ### Choices among names -/

/-- A table of names in which every line is found lists what is looked up. -/
theorem lookup_eq_some_iff_mem {β : Type} {names : List (String × β)}
    (h : ∀ m ∈ names, names.lookup m.1 = some m.2) {s : String} {b : β} :
    names.lookup s = some b ↔ (s, b) ∈ names := by
  refine ⟨fun hs => ?_, fun hs => h _ hs⟩
  obtain ⟨before, after, rfl, -⟩ := List.lookup_eq_some_iff.mp hs
  exact List.mem_append_right _ List.mem_cons_self

/-- **A name is looked up among the names.** -/
theorem choice?_ofText {β : Type} (names : List (String × β)) (s : String) :
    choice? names (ofText s) = names.lookup s := by
  rw [ofText, choice?, text?_escape, Option.bind_some]

end FractalRender.Json
