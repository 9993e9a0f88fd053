import FractalRender.Proofs.Json.Accepted
import FractalRender.Proofs.Json.Data

/-!
# JSON — fields that may be left out

A configuration and the options of a session are read from objects that need not give every field.
What such an object gives is said of each field by itself, so neither the order of the members nor
the members between them matter.

A field that is given twice, or with a value that stands for none of its type, is an error and not a
reason to keep the standard value.

* `isObjectText_iff`: the texts that are read as objects are the objects of JSON.
* `onlyValue?_eq_some_iff`: what is found for a name.
* `IsName`, `IsWord`, `IsDouble`, `IsPoint`: what a value stands for, by the type of the field.
* `OptionalField.read?_eq_some_iff`: what a field is read as.
* `PartialRecord.deserialize?_eq_some_iff`: an object is read as the record of what its fields are
  read as.
* `partial_objects`: configurations and options are read so, through texts.
-/

namespace FractalRender

open Json

namespace Json

/-! ### Objects and their members -/

/-- The text is an object of JSON, with its members by name and in their order: with any white
space, any escapes in the keys and any values. -/
def IsObjectText (text : String) (members : List (String × Json)) : Prop :=
  ∃ object, IsText (.object object) text.toList ∧ keyed? object = some members

/-- **The texts that are read as objects**, with keys that stand for names, are the objects of
JSON. -/
theorem isObjectText_iff {text : String} {members : List (String × Json)} :
    IsObjectText text members ↔
      ∃ object, parse? text = some (.object object) ∧ keyed? object = some members := by
  simp only [IsObjectText, parse?_eq_some_iff]

/-- Any members of well-written values have a text. -/
theorem isObjectText_render {members : List (String × Json)}
    (h : ∀ m ∈ members, m.2.WellWritten) : IsObjectText (record members).render members := by
  refine ⟨_, ?_, keyed?_record members⟩
  rw [render, String.toList_ofList]
  exact (wellWritten_record h).isValue.isText

/-- How often a name is given. -/
def times (members : List (String × Json)) (name : String) : Nat :=
  (members.map Prod.fst).count name

theorem times_eq_length (members : List (String × Json)) (name : String) :
    times members name = (members.filter fun m => m.1 == name).length := by
  rw [times, List.count, List.countP_map, List.countP_eq_length_filter]
  rfl

theorem exists_mem_iff {members : List (String × Json)} {name : String} :
    (∃ j, (name, j) ∈ members) ↔ 0 < times members name := by
  rw [times, List.count_pos_iff, List.mem_map]
  exact ⟨fun ⟨j, hj⟩ => ⟨_, hj, rfl⟩, fun ⟨⟨_, j⟩, hj, rfl⟩ => ⟨j, hj⟩⟩

/-- **What is found for a name**: nothing when it is not given, and its value when it is given
once. -/
theorem onlyValue?_eq_some_iff {members : List (String × Json)} {name : String}
    {v : Option Json} : onlyValue? members name = some v ↔
      (v = none ∧ times members name = 0) ∨
        ∃ j, v = some j ∧ times members name = 1 ∧ (name, j) ∈ members := by
  rw [times_eq_length]
  have mem {m : String × Json} : m ∈ members.filter (fun m => m.1 == name) ↔
      m ∈ members ∧ m.1 = name := by simp
  unfold onlyValue?
  generalize members.filter (fun m => m.1 == name) = found at mem
  match found with
  | [] => simp [eq_comm]
  | [m] =>
      obtain ⟨hm, rfl⟩ := mem.mp List.mem_cons_self
      constructor
      · rintro ⟨⟩
        exact .inr ⟨_, rfl, rfl, hm⟩
      · rintro (⟨-, h⟩ | ⟨j, rfl, -, hj⟩)
        · cases h
        · rw [← List.mem_singleton.mp (mem.mpr ⟨hj, rfl⟩)]
  | _ :: _ :: _ => simp

/-- A name that is given once has one value. -/
theorem eq_of_times_eq_one {members : List (String × Json)} {name : String} {j j' : Json}
    (h : times members name = 1) (hj : (name, j) ∈ members) (hj' : (name, j') ∈ members) :
    j = j' := by
  have found := onlyValue?_eq_some_iff.mpr (.inr ⟨j, rfl, h, hj⟩)
  have found' := onlyValue?_eq_some_iff.mpr (.inr ⟨j', rfl, h, hj'⟩)
  exact Option.some.inj (Option.some.inj (found.symm.trans found'))

/-- What is found depends on the members with the name alone, in any order. -/
theorem onlyValue?_perm {members members' : List (String × Json)} {name : String}
    (h : (members.filter fun m => m.1 == name).Perm (members'.filter fun m => m.1 == name)) :
    onlyValue? members name = onlyValue? members' name := by
  unfold onlyValue?
  generalize members.filter (fun m => m.1 == name) = l at h
  generalize members'.filter (fun m => m.1 == name) = l' at h
  match l, l', h.length_eq with
  | [], [], _ => rfl
  | [m], [m'], _ => rw [List.perm_singleton.mp h.symm]
  | _ :: _ :: _, _ :: _ :: _, _ => rfl

/-! ### What values stand for -/

/-- A name of a table, as a string or as the only key of an object whose value is null. -/
inductive IsName {β : Type} (names : List (String × β)) : Json → β → Prop where
  | string {literal : List Char} {s : String} {b : β} (h : text? literal = some s)
      (hb : (s, b) ∈ names) : IsName names (.string literal) b
  | object {key : List Char} {s : String} {b : β} (h : text? key = some s)
      (hb : (s, b) ∈ names) : IsName names (.object [(key, .null)]) b

/-- Digits and nothing else, with a word as their value. -/
inductive IsWord : Json → UInt32 → Prop where
  | digits {literal : List Char} {n : UInt32} (h : ∀ c ∈ literal, isDigit c = true)
      (hn : digitsValue literal = n.toNat) : IsWord (.number literal) n

/-- A truth value as it stands. -/
inductive IsBool : Json → Bool → Prop where
  | bool (b : Bool) : IsBool (.bool b) b

/-- A number that is not too large for a double. -/
inductive IsDouble : Json → Float → Prop where
  | number {literal : List Char} {x : Float} (h : double? literal = some x) :
      IsDouble (.number literal) x

/-- Two doubles. -/
inductive IsPoint : Json → Complex Float → Prop where
  | pair {re im : Json} {z : Complex Float} (hre : IsDouble re z.re) (him : IsDouble im z.im) :
      IsPoint (.array [re, im]) z

theorem choice?_eq_some_iff {β : Type} {names : List (String × β)}
    (h : ∀ m ∈ names, names.lookup m.1 = some m.2) {j : Json} {b : β} :
    choice? names j = some b ↔ IsName names j b := by
  constructor
  · intro hj
    unfold choice? at hj
    split at hj
    · obtain ⟨s, hs, hb⟩ := Option.bind_eq_some_iff.mp hj
      exact .string hs ((lookup_eq_some_iff_mem h).mp hb)
    · obtain ⟨s, hs, hb⟩ := Option.bind_eq_some_iff.mp hj
      exact .object hs ((lookup_eq_some_iff_mem h).mp hb)
    · cases hj
  · rintro (⟨hs, hb⟩ | ⟨hs, hb⟩)
    all_goals
      rw [choice?, hs]
      exact (lookup_eq_some_iff_mem h).mpr hb

theorem decode?_word_iff {j : Json} {n : UInt32} : decode? j = some n ↔ IsWord j n := by
  constructor
  · intro h
    cases j with
    | number literal =>
        obtain ⟨digits, hn⟩ := word?_eq_some_iff.mp h
        exact .digits digits hn
    | _ => cases h
  · rintro ⟨digits, hn⟩
    exact word?_eq_some_iff.mpr ⟨digits, hn⟩

theorem decode?_bool_iff {j : Json} {b : Bool} : decode? j = some b ↔ IsBool j b := by
  constructor
  · intro h
    cases j with
    | bool b' =>
        cases h
        exact .bool b
    | _ => cases h
  · rintro ⟨⟩
    rfl

theorem decode?_double_iff {j : Json} {x : Float} : decode? j = some x ↔ IsDouble j x := by
  constructor
  · intro h
    cases j with
    | number literal => exact .number h
    | _ => cases h
  · rintro ⟨h⟩
    exact h

theorem decode?_point_iff {j : Json} {z : Complex Float} : decode? j = some z ↔ IsPoint j z := by
  constructor
  · intro h
    simp only [decode?] at h
    split at h
    · simp only [Option.bind_eq_bind, Option.bind_eq_some_iff] at h
      obtain ⟨x, hx, y, hy, hz⟩ := h
      cases hz
      exact .pair (decode?_double_iff.mp hx) (decode?_double_iff.mp hy)
    · cases h
  · rintro ⟨⟨hx⟩, ⟨hy⟩⟩
    simp only [decode?, hx, hy]
    rfl

/-! ### Fields -/

/-- What the members of an object give for a field: its standard value when they do not name it, and
when they name it once, what the value stands for. -/
inductive Gives {β : Type} (denotes : Json → β → Prop) (members : List (String × Json))
    (name : String) (standard : β) : β → Prop where
  | absent (h : times members name = 0) : Gives denotes members name standard standard
  | once {j : Json} {b : β} (h : times members name = 1) (hj : (name, j) ∈ members)
      (hb : denotes j b) : Gives denotes members name standard b

/-- A field of a record that may be left out. -/
structure OptionalField (γ : Type) where
  name : String
  /-- The type of the field. -/
  Value : Type
  [codec : Codec Value]
  [holds : HasDoubles Value]
  [lawful : LawfulCodec Value]
  get : γ → Value
  /-- What a value of JSON stands for. -/
  Denotes : Json → Value → Prop
  decode?_eq_some_iff : ∀ {j : Json} {b : Value}, decode? j = some b ↔ Denotes j b
  /-- Null stands for nothing. -/
  decode?_null : decode? .null = (none : Option Value)

attribute [instance] OptionalField.codec OptionalField.holds OptionalField.lawful

namespace OptionalField

variable {γ : Type} (f : OptionalField γ)

/-- The value of JSON stands for a value of the field. -/
def Takes (j : Json) : Prop := ∃ b : f.Value, f.Denotes j b

/-- What the field is read as. -/
def read? (standard : γ) (members : List (String × Json)) : Option f.Value :=
  (onlyValue? members f.name).bind (optional? (f.get standard))

/-- **What a field is read as** is what the members give for it. -/
theorem read?_eq_some_iff {standard : γ} {members : List (String × Json)} {b : f.Value} :
    f.read? standard members = some b ↔ Gives f.Denotes members f.name (f.get standard) b := by
  unfold read?
  rw [Option.bind_eq_some_iff]
  constructor
  · rintro ⟨v, hv, hb⟩
    obtain ⟨rfl, h⟩ | ⟨j, rfl, h, hj⟩ := onlyValue?_eq_some_iff.mp hv
    · cases hb
      exact .absent h
    · exact .once h hj (f.decode?_eq_some_iff.mp hb)
  · rintro (h | ⟨h, hj, hb⟩)
    · exact ⟨none, onlyValue?_eq_some_iff.mpr (.inl ⟨rfl, h⟩), rfl⟩
    · exact ⟨_, onlyValue?_eq_some_iff.mpr (.inr ⟨_, rfl, h, hj⟩), f.decode?_eq_some_iff.mpr hb⟩

end OptionalField

/-! ### Records -/

/-- A record whose fields may be left out, with the values that they have then. -/
structure PartialRecord (γ : Type) [Codec γ] where
  standard : γ
  fields : List (OptionalField γ)
  /-- An object is read as a record field by field. -/
  decode?_object {object : List (List Char × Json)} {members : List (String × Json)}
      (h : keyed? object = some members) (c : γ) :
    decode? (.object object) = some c ↔
      ∀ f ∈ fields, f.read? standard members = some (f.get c)
  /-- Any values of the fields make a record. -/
  exists_record {members : List (String × Json)}
      (h : ∀ f ∈ fields, ∃ b, f.read? standard members = some b) :
    ∃ c, ∀ f ∈ fields, f.read? standard members = some (f.get c)
  /-- There are no other fields. -/
  ext {c d : γ} (h : ∀ f ∈ fields, f.get c = f.get d) : c = d

/-- The members of an object that name a field. -/
def known {γ : Type} (fields : List (OptionalField γ)) (members : List (String × Json)) :
    List (String × Json) :=
  members.filter fun m => (fields.map OptionalField.name).contains m.1

/-- Objects of JSON are read as records whose fields may be left out. -/
structure ReadsPartial (γ : Type) [Codec γ] (standard : γ) (fields : List (OptionalField γ)) :
    Prop where
  /-- The record that is read has the given fields in place of the standard ones. -/
  overrides {text : String} {members : List (String × Json)} (h : IsObjectText text members)
      (c : γ) : deserialize? text = some c ↔
    ∀ f ∈ fields, Gives f.Denotes members f.name (f.get standard) (f.get c)
  /-- There are no other fields. -/
  complete {c d : γ} (h : ∀ f ∈ fields, f.get c = f.get d) : c = d
  /-- Fields that are given at most once, with values of their types, are read. -/
  succeeds {text : String} {members : List (String × Json)} (h : IsObjectText text members)
      (once : ∀ f ∈ fields, times members f.name ≤ 1)
      (typed : ∀ f ∈ fields, ∀ j, (f.name, j) ∈ members → f.Takes j) :
    ∃ c : γ, deserialize? text = some c
  /-- Neither the order of the members nor those that name no field matter. -/
  alike {text text' : String} {members members' : List (String × Json)}
      (h : IsObjectText text members) (h' : IsObjectText text' members')
      (same : (known fields members).Perm (known fields members')) :
    (deserialize? text : Option γ) = deserialize? text'
  /-- No field may be given twice. -/
  twice {text : String} {members : List (String × Json)} (h : IsObjectText text members)
      {f : OptionalField γ} (hf : f ∈ fields) (ht : 1 < times members f.name) :
    (deserialize? text : Option γ) = none
  /-- No field may be given with a value that stands for none of its type. -/
  mistyped {text : String} {members : List (String × Json)} (h : IsObjectText text members)
      {f : OptionalField γ} (hf : f ∈ fields) {j : Json} (hj : (f.name, j) ∈ members)
      (ht : ¬ f.Takes j) : (deserialize? text : Option γ) = none
  /-- Null stands for no value of a field. -/
  null {f : OptionalField γ} (hf : f ∈ fields) : ¬ f.Takes .null
  /-- Any value of a field can be given, if the doubles in it are finite and read back. -/
  values {f : OptionalField γ} (hf : f ∈ fields) {b : f.Value} (h : Readable b) :
    f.Denotes (encode b) b

namespace PartialRecord

variable {γ : Type} [Codec γ] (R : PartialRecord γ) {text : String}
  {members : List (String × Json)}

/-- **An object is read as the record of what its fields are read as.** -/
theorem deserialize?_eq_some_iff (h : IsObjectText text members) {c : γ} :
    deserialize? text = some c ↔
      ∀ f ∈ R.fields, f.read? R.standard members = some (f.get c) := by
  obtain ⟨object, htext, hmembers⟩ := isObjectText_iff.mp h
  rw [deserialize?, htext, Option.bind_some, R.decode?_object hmembers]

/-- A field that is not read stops the whole object. -/
theorem deserialize?_eq_none (h : IsObjectText text members) {f : OptionalField γ}
    (hf : f ∈ R.fields) (hnone : f.read? R.standard members = none) :
    (deserialize? text : Option γ) = none := by
  refine Option.eq_none_iff_forall_ne_some.mpr fun c hc => ?_
  have hread := (R.deserialize?_eq_some_iff h).mp hc f hf
  rw [hnone] at hread
  cases hread

theorem readsPartial : ReadsPartial γ R.standard R.fields where
  overrides {text members} h c := by
    simp only [R.deserialize?_eq_some_iff h, OptionalField.read?_eq_some_iff]
  complete := R.ext
  succeeds {text members} h once typed := by
    have given : ∀ f ∈ R.fields, ∃ b, f.read? R.standard members = some b := by
      intro f hf
      simp only [f.read?_eq_some_iff]
      rcases Nat.le_one_iff_eq_zero_or_eq_one.mp (once f hf) with hzero | hone
      · exact ⟨_, .absent hzero⟩
      · obtain ⟨j, hj⟩ := exists_mem_iff.mpr (hone ▸ Nat.one_pos)
        obtain ⟨b, hb⟩ := typed f hf j hj
        exact ⟨b, .once hone hj hb⟩
    obtain ⟨c, hc⟩ := R.exists_record given
    exact ⟨c, (R.deserialize?_eq_some_iff h).mpr hc⟩
  alike {text text' members members'} h h' same := by
    have read (f) (hf : f ∈ R.fields) :
        f.read? R.standard members = f.read? R.standard members' := by
      have named (l : List (String × Json)) :
          (known R.fields l).filter (fun m => m.1 == f.name) =
            l.filter fun m => m.1 == f.name := by
        rw [known, List.filter_filter]
        refine List.filter_congr fun m _ => ?_
        by_cases hm : m.1 = f.name
        · simpa [hm] using ⟨f, hf, rfl⟩
        · simp [hm]
      have one := same.filter fun m => m.1 == f.name
      rw [named, named] at one
      rw [OptionalField.read?, OptionalField.read?, onlyValue?_perm one]
    refine Option.ext fun c => ?_
    rw [R.deserialize?_eq_some_iff h, R.deserialize?_eq_some_iff h']
    exact forall₂_congr fun f hf => by rw [read f hf]
  twice {text members} h f hf ht := by
    refine R.deserialize?_eq_none h hf (Option.eq_none_iff_forall_ne_some.mpr fun b hb => ?_)
    cases f.read?_eq_some_iff.mp hb with
    | absent hzero => omega
    | once hone => omega
  mistyped {text members} h f hf j hj ht := by
    refine R.deserialize?_eq_none h hf (Option.eq_none_iff_forall_ne_some.mpr fun b hb => ?_)
    have hpos : 0 < times members f.name := exists_mem_iff.mp ⟨j, hj⟩
    cases f.read?_eq_some_iff.mp hb with
    | absent hzero => omega
    | once hone hj' hb' => exact ht ⟨b, eq_of_times_eq_one hone hj' hj ▸ hb'⟩
  null {f} hf := by
    rintro ⟨b, hb⟩
    have read := f.decode?_eq_some_iff.mpr hb
    rw [f.decode?_null] at read
    cases read
  values {f} hf b h := f.decode?_eq_some_iff.mp (decode?_encode h)

end PartialRecord

/-! ### Records of five fields -/

section

variable {γ : Type} (standard : γ) (f₁ f₂ f₃ f₄ f₅ : OptionalField γ)
  (make : f₁.Value → f₂.Value → f₃.Value → f₄.Value → f₅.Value → γ)

/-- A record made of five fields, each of which keeps its standard value when it is not given. -/
def readFive? (j : Json) : Option γ :=
  match fields? [f₁.name, f₂.name, f₃.name, f₄.name, f₅.name] j with
  | some [v₁, v₂, v₃, v₄, v₅] => do
    some (make (← optional? (f₁.get standard) v₁) (← optional? (f₂.get standard) v₂)
      (← optional? (f₃.get standard) v₃) (← optional? (f₄.get standard) v₄)
      (← optional? (f₅.get standard) v₅))
  | _ => none

/-- Five fields of an object are found together or one after the other. -/
theorem readFive?_object {object : List (List Char × Json)} {members : List (String × Json)}
    (h : keyed? object = some members) :
    readFive? standard f₁ f₂ f₃ f₄ f₅ make (.object object) = (do
      some (make (← f₁.read? standard members) (← f₂.read? standard members)
        (← f₃.read? standard members) (← f₄.read? standard members)
        (← f₅.read? standard members))) := by
  unfold readFive? OptionalField.read?
  simp only [fields?, h, Option.bind_some, List.mapM_cons]
  -- a field that is not found stops either way
  rcases onlyValue? members f₁.name with _ | v₁
  · rfl
  rcases onlyValue? members f₂.name with _ | v₂
  · simp
  rcases onlyValue? members f₃.name with _ | v₃
  · simp
  rcases onlyValue? members f₄.name with _ | v₄
  · simp
  rcases onlyValue? members f₅.name with _ | v₅
  · simp
  simp

/-- A record of five fields that may all be left out. -/
def PartialRecord.ofFive [Codec γ]
    (decode?_eq : ∀ j : Json, decode? j = readFive? standard f₁ f₂ f₃ f₄ f₅ make j)
    (get_make : ∀ b₁ b₂ b₃ b₄ b₅, f₁.get (make b₁ b₂ b₃ b₄ b₅) = b₁ ∧
      f₂.get (make b₁ b₂ b₃ b₄ b₅) = b₂ ∧ f₃.get (make b₁ b₂ b₃ b₄ b₅) = b₃ ∧
      f₄.get (make b₁ b₂ b₃ b₄ b₅) = b₄ ∧ f₅.get (make b₁ b₂ b₃ b₄ b₅) = b₅)
    (make_get : ∀ c, make (f₁.get c) (f₂.get c) (f₃.get c) (f₄.get c) (f₅.get c) = c) :
    PartialRecord γ where
  standard := standard
  fields := [f₁, f₂, f₃, f₄, f₅]
  decode?_object {object members} h c := by
    rw [decode?_eq, readFive?_object _ _ _ _ _ _ _ h]
    simp only [List.forall_mem_cons, Option.bind_eq_bind, Option.bind_eq_some_iff]
    constructor
    · rintro ⟨b₁, h₁, b₂, h₂, b₃, h₃, b₄, h₄, b₅, h₅, ⟨⟩⟩
      obtain ⟨e₁, e₂, e₃, e₄, e₅⟩ := get_make b₁ b₂ b₃ b₄ b₅
      rw [e₁, e₂, e₃, e₄, e₅]
      exact ⟨h₁, h₂, h₃, h₄, h₅, nofun⟩
    · rintro ⟨h₁, h₂, h₃, h₄, h₅, -⟩
      exact ⟨_, h₁, _, h₂, _, h₃, _, h₄, _, h₅, congrArg some (make_get c)⟩
  exists_record {members} h := by
    simp only [List.forall_mem_cons] at h ⊢
    obtain ⟨⟨b₁, h₁⟩, ⟨b₂, h₂⟩, ⟨b₃, h₃⟩, ⟨b₄, h₄⟩, ⟨b₅, h₅⟩, -⟩ := h
    refine ⟨make b₁ b₂ b₃ b₄ b₅, ?_⟩
    obtain ⟨e₁, e₂, e₃, e₄, e₅⟩ := get_make b₁ b₂ b₃ b₄ b₅
    rw [e₁, e₂, e₃, e₄, e₅]
    exact ⟨h₁, h₂, h₃, h₄, h₅, nofun⟩
  ext {c d} h := by
    simp only [List.forall_mem_cons] at h
    obtain ⟨h₁, h₂, h₃, h₄, h₅, -⟩ := h
    rw [← make_get c, ← make_get d, h₁, h₂, h₃, h₄, h₅]

end

end Json

/-! ### Configurations and options -/

namespace Config

def kindField : OptionalField (Config Float) :=
  ⟨"kind", Kind, kind, IsName Kind.jsonNames, choice?_eq_some_iff (by decide), rfl⟩

def capField : OptionalField (Config Float) :=
  ⟨"max_iterations", UInt32, maxIterations, IsWord, decode?_word_iff, rfl⟩

def paletteField : OptionalField (Config Float) :=
  ⟨"palette", Palette, palette, IsName Palette.jsonNames, choice?_eq_some_iff (by decide), rfl⟩

def constantField : OptionalField (Config Float) :=
  ⟨"julia_constant", Complex Float, juliaConstant, IsPoint, decode?_point_iff, rfl⟩

def powerField : OptionalField (Config Float) :=
  ⟨"multibrot_power", Float, multibrotPower, IsDouble, decode?_double_iff, rfl⟩

/-- The fields of a configuration. -/
def fields : List (OptionalField (Config Float)) :=
  [kindField, capField, paletteField, constantField, powerField]

def partialRecord : PartialRecord (Config Float) :=
  .ofFive .standard kindField capField paletteField constantField powerField Config.mk
    (fun _ => rfl) (fun _ _ _ _ _ => ⟨rfl, rfl, rfl, rfl, rfl⟩) fun _ => rfl

end Config

namespace Options

def rowsField : OptionalField (Options Float) :=
  ⟨"rows_per_tick", UInt32, rowsPerTick, IsWord, decode?_word_iff, rfl⟩

def pointsField : OptionalField (Options Float) :=
  ⟨"ifs_points_per_tick", UInt32, pointsPerTick, IsWord, decode?_word_iff, rfl⟩

def policyField : OptionalField (Options Float) :=
  ⟨"overlap_policy", OverlapPolicy, overlapPolicy,
    IsName [("coalesce", .coalesce), ("drop", .drop)], choice?_eq_some_iff (by decide), rfl⟩

def validateField : OptionalField (Options Float) :=
  ⟨"validate_compiled", Bool, validateCompiled, IsBool, decode?_bool_iff, rfl⟩

def toleranceField : OptionalField (Options Float) :=
  ⟨"validation_tolerance", Float, validationTolerance, IsDouble, decode?_double_iff, rfl⟩

/-- The fields of the options of a session. -/
def fields : List (OptionalField (Options Float)) :=
  [rowsField, pointsField, policyField, validateField, toleranceField]

def partialRecord : PartialRecord (Options Float) :=
  .ofFive .standard rowsField pointsField policyField validateField toleranceField Options.mk
    (fun _ => rfl) (fun _ _ _ _ _ => ⟨rfl, rfl, rfl, rfl, rfl⟩) fun _ => rfl

end Options

/-- **A partial object overrides the standard values, whatever its order.**  An object of JSON in
which each field is given at most once, with a value of its type, is read as the standard
configuration with exactly these fields replaced, whatever other members stand between them; and
likewise as options, which are checked only later.  Texts that differ in the order of the fields or
in other members are read alike.  A field that is given twice, or with null or a value of another
type, makes reading fail. -/
theorem partial_objects :
    ReadsPartial (Config Float) .standard Config.fields ∧
      ReadsPartial (Options Float) .standard Options.fields :=
  ⟨Config.partialRecord.readsPartial, Options.partialRecord.readsPartial⟩

/-- A configuration with two fields, in another order than they have and with other members around
them; it cannot be read with one of the two given once more. -/
theorem partial_objects_shuffled :
    let members : List (String × Json) :=
      [("zoom", .array [.null, .object []]), ("palette", ofText "feu"), ("", .bool true),
        ("kind", ofText "koch")]
    (record members).render =
        "\x7b\"zoom\":[null,\x7b\x7d],\"palette\":\"feu\",\"\":true,\"kind\":\"koch\"\x7d" ∧
      (deserialize? (record members).render : Option (Config Float)) =
        some (.of .koch 256 .fire) ∧
      (deserialize? (record (members ++ [("kind", ofText "koch")])).render :
        Option (Config Float)) = none := by
  obtain ⟨config, -⟩ := partial_objects
  intro members
  have written : ∀ m ∈ members, m.2.WellWritten := by
    simp only [members, List.forall_mem_cons]
    refine ⟨.array ?_, wellWritten_ofText _, .bool _, wellWritten_ofText _, List.forall_mem_nil _⟩
    simp only [List.forall_mem_cons]
    exact ⟨.null, .object (List.forall_mem_nil _) (List.forall_mem_nil _), List.forall_mem_nil _⟩
  have again : ∀ m ∈ members ++ [("kind", ofText "koch")], m.2.WellWritten :=
    List.forall_mem_append.mpr ⟨written, by simp [wellWritten_ofText]⟩
  refine ⟨rfl, (config.overrides (isObjectText_render written) _).mpr ?_,
    config.twice (isObjectText_render again) (f := Config.kindField) List.mem_cons_self (by decide)⟩
  simp only [Config.fields, List.forall_mem_cons]
  exact ⟨.once (by decide) (.tail _ (.tail _ (.tail _ List.mem_cons_self)))
      (.string (text?_escape "koch") (by decide)), .absent (by decide),
    .once (by decide) (.tail _ List.mem_cons_self) (.string (text?_escape "feu") (by decide)),
    .absent (by decide), .absent (by decide), List.forall_mem_nil _⟩

end FractalRender
