import FractalRender.Proofs.Json.Codec
import FractalRender.Json.Data
import FractalRender.Proofs.Scalar.Finite

/-!
# JSON — the data of a picture is read back

Every type of data goes through the one printer and the one reader.  What differs is the form:
names, tagged objects, records whose fields must be given and records whose fields may be left
out, and two types that check what they read.  A field under another name would silently keep its
standard value, so the names in both directions are part of what is proved here.

* `LawfulCodec` instances: each form is read back, up to its doubles.
* `Viewport.decode?_encode`: a view is read back if its scale can be used.
* `Config.allFinite_of_decode?`: the doubles of a configuration that was read are finite.
* `json_roundTrip`: all types of data, through text.
-/

namespace FractalRender

open Json

/-! ### Names -/

section

variable {β : Type} [Codec β] [HasDoubles β]

/-- A codec that writes names is lawful if it finds them again. -/
theorem lawfulCodec_of_names {name : β → String} (hdoubles : ∀ b : β, doubles b = [])
    (hencode : ∀ b : β, encode b = ofText (name b))
    (hdecode : ∀ b : β, decode? (ofText (name b)) = some b) : LawfulCodec β where
  wellWritten_encode b := by
    rw [hencode]
    exact wellWritten_ofText _
  decode?_encode {b} _ := by rw [hencode, hdecode]
  decode?_encode_eq_none {b} h := (h fun x hx => by simp [hdoubles] at hx).elim

end

instance : HasDoubles Kind := ⟨fun _ => []⟩

instance : LawfulCodec Kind :=
  lawfulCodec_of_names (fun _ => rfl) (fun _ => rfl) fun k =>
    (choice?_ofText Kind.jsonNames k.jsonName).trans (by cases k <;> rfl)

instance : HasDoubles Palette := ⟨fun _ => []⟩

instance : LawfulCodec Palette :=
  lawfulCodec_of_names (fun _ => rfl) (fun _ => rfl) fun p =>
    (choice?_ofText Palette.jsonNames p.jsonName).trans (by cases p <;> rfl)

instance : HasDoubles OverlapPolicy := ⟨fun _ => []⟩

instance : LawfulCodec OverlapPolicy :=
  lawfulCodec_of_names (fun _ => rfl) (fun _ => rfl) fun p =>
    (choice?_ofText _ p.jsonName).trans (by cases p <;> rfl)

instance : HasDoubles BackendUsed := ⟨fun _ => []⟩

/-- A backend's object is read by its tag. -/
theorem BackendUsed.decode?_record {tag : String} {fields : List (String × Json)}
    {read : Option Json → Option BackendUsed} (hnodup : (fields.map Prod.fst).Nodup)
    (htag : fields.lookup "type" = some (ofText tag)) (hread : tags.lookup tag = some read) :
    decode? (record fields) = read (fields.lookup "name") := by
  have found : fields? ["type", "name"] (record fields) =
      some [some (ofText tag), fields.lookup "name"] := by
    rw [fields?_record hnodup, List.map_cons, htag]
    rfl
  rw [record] at found ⊢
  simp only [decode?, found, choice?_ofText, hread, Option.bind_some]

instance : LawfulCodec BackendUsed where
  wellWritten_encode b := by
    cases b <;> exact wellWritten_record (by simp [wellWritten_ofText])
  decode?_encode {b} _ := by
    cases b with
    | compiled name =>
        refine (BackendUsed.decode?_record (by simp) rfl rfl).trans ?_
        show (asText? (ofText name)).map BackendUsed.compiled = _
        rw [asText?_ofText, Option.map_some]
    | interpreted => exact (BackendUsed.decode?_record (by simp) rfl rfl).trans rfl
    | unavailable => exact (BackendUsed.decode?_record (by simp) rfl rfl).trans rfl
  decode?_encode_eq_none h := (h nofun).elim

/-! ### Records -/

instance : HasDoubles PixelRect := ⟨fun _ => []⟩

instance : LawfulCodec PixelRect where
  wellWritten_encode r := wellWritten_record (by simp [wellWritten_encode])
  decode?_encode {r} _ := by
    have fields : fields? ["x", "y", "width", "height"] (encode r) =
        some [some (encode r.x), some (encode r.y), some (encode r.width), some (encode r.height)] :=
      fields?_record (by simp)
    have word (n : UInt32) : required? (some (encode n)) = some n :=
      required?_encode_of_nil n rfl
    simp [decode?, fields, word]
  decode?_encode_eq_none h := (h nofun).elim

instance : HasDoubles (Complex Float) := ⟨fun z => doubles z.re ++ doubles z.im⟩

instance : LawfulCodec (Complex Float) where
  wellWritten_encode z := .array (by simp [wellWritten_encode])
  decode?_encode {z} h := by
    obtain ⟨hre, him⟩ := List.forall_mem_append.mp h
    show (do some (Complex.mk (← decode? (encode z.re)) (← decode? (encode z.im)))) = some z
    rw [decode?_encode hre, decode?_encode him]
    rfl
  decode?_encode_eq_none {z} h := by
    show (do some (Complex.mk (← decode? (encode z.re)) (← decode? (encode z.im)))) = none
    rcases not_and_or.mp (mt List.forall_mem_append.mpr h) with hre | him
    · rw [decode?_encode_eq_none hre]
      rfl
    · rw [decode?_encode_eq_none him]
      simp

/-- A centre and a size are read from three fields that must be given. -/
theorem required?_center_size {γ : Type} {f : Float → Float → Float → Option γ}
    {z : Complex Float} {x : Float} (hz : Readable z) (hx : Readable x) :
    (do
      let re ← required? (some (encode z.re))
      let im ← required? (some (encode z.im))
      let size ← required? (some (encode x))
      f re im size) = f z.re z.im x := by
  obtain ⟨hre, him⟩ := List.forall_mem_append.mp hz
  rw [required?_encode hre, required?_encode him, required?_encode hx]
  rfl

theorem required?_center_size_eq_none {γ : Type} {f : Float → Float → Float → Option γ}
    {z : Complex Float} {x : Float} (h : ¬ (AllFinite z ∧ AllFinite x)) :
    (do
      let re ← required? (some (encode z.re))
      let im ← required? (some (encode z.im))
      let size ← required? (some (encode x))
      f re im size) = none := by
  rcases not_and_or.mp h with hz | hx
  · rcases not_and_or.mp (mt List.forall_mem_append.mpr hz) with hre | him
    · rw [required?_encode_eq_none hre]
      rfl
    · simp [required?_encode_eq_none him]
  · simp [required?_encode_eq_none hx]

instance : HasDoubles (ViewPreset Float) := ⟨fun p => doubles p.center ++ doubles p.span⟩

theorem ViewPreset.fields?_encode (p : ViewPreset Float) :
    fields? ["center_x", "center_y", "span"] (encode p) =
      some [some (encode p.center.re), some (encode p.center.im), some (encode p.span)] :=
  fields?_record (by simp)

instance : LawfulCodec (ViewPreset Float) where
  wellWritten_encode p := wellWritten_record (by simp [wellWritten_encode])
  decode?_encode {p} h := by
    obtain ⟨hcenter, hspan⟩ := List.forall_mem_append.mp h
    simp only [decode?, p.fields?_encode]
    exact required?_center_size hcenter hspan
  decode?_encode_eq_none {p} h := by
    simp only [decode?, p.fields?_encode]
    exact required?_center_size_eq_none (mt List.forall_mem_append.mpr h)

instance : HasDoubles (Config Float) :=
  ⟨fun c => doubles c.juliaConstant ++ doubles c.multibrotPower⟩

theorem Config.fields?_encode (c : Config Float) :
    fields? ["kind", "max_iterations", "palette", "julia_constant", "multibrot_power"] (encode c) =
      some [some (encode c.kind), some (encode c.maxIterations), some (encode c.palette),
        some (encode c.juliaConstant), some (encode c.multibrotPower)] :=
  fields?_record (by simp)

instance : LawfulCodec (Config Float) where
  wellWritten_encode c := wellWritten_record (by simp [wellWritten_encode])
  decode?_encode {c} h := by
    obtain ⟨hjulia, hpower⟩ := List.forall_mem_append.mp h
    simp [decode?, c.fields?_encode, optional?_encode_of_nil c.kind rfl,
      optional?_encode_of_nil c.maxIterations rfl, optional?_encode_of_nil c.palette rfl,
      optional?_encode hjulia, optional?_encode hpower]
  decode?_encode_eq_none {c} h := by
    simp only [decode?, c.fields?_encode]
    rcases not_and_or.mp (mt List.forall_mem_append.mpr h) with hjulia | hpower
    · simp [optional?_encode_eq_none hjulia]
    · simp [optional?_encode_eq_none hpower]

instance : HasDoubles Progress := ⟨fun p => doubles p.elapsedMs⟩

theorem Progress.fields?_encode (p : Progress) :
    fields? ["completed_steps", "total_steps", "elapsed_ms", "is_complete"] (encode p) =
      some [some (encode p.completed), some (encode p.total), some (encode p.elapsedMs),
        some (encode p.isComplete)] :=
  fields?_record (by simp)

instance : LawfulCodec Progress where
  wellWritten_encode p := wellWritten_record (by simp [wellWritten_encode])
  decode?_encode {p} h := by
    have helapsed : Readable p.elapsedMs := h
    simp [decode?, p.fields?_encode, required?_encode_of_nil p.completed rfl,
      required?_encode_of_nil p.total rfl, required?_encode_of_nil p.isComplete rfl,
      required?_encode helapsed]
  decode?_encode_eq_none {p} h := by
    have helapsed : ¬ AllFinite p.elapsedMs := h
    simp [decode?, p.fields?_encode, required?_encode_eq_none helapsed]

instance : HasDoubles Status := ⟨fun s => doubles s.elapsedMs⟩

theorem Status.fields?_encode (s : Status) :
    fields? ["kind", "backend_used", "elapsed_ms", "completed"] (encode s) =
      some [some (encode s.kind), some (encode s.backend), some (encode s.elapsedMs),
        some (encode s.completed)] :=
  fields?_record (by simp)

instance : LawfulCodec Status where
  wellWritten_encode s := wellWritten_record (by simp [wellWritten_encode])
  decode?_encode {s} h := by
    have helapsed : Readable s.elapsedMs := h
    simp [decode?, s.fields?_encode, required?_encode_of_nil s.kind rfl,
      required?_encode_of_nil s.backend rfl, required?_encode_of_nil s.completed rfl,
      required?_encode helapsed]
  decode?_encode_eq_none {s} h := by
    have helapsed : ¬ AllFinite s.elapsedMs := h
    simp [decode?, s.fields?_encode, required?_encode_eq_none helapsed]

instance : HasDoubles (Options Float) := ⟨fun o => doubles o.validationTolerance⟩

theorem Options.fields?_encode (o : Options Float) :
    fields? ["rows_per_tick", "ifs_points_per_tick", "overlap_policy", "validate_compiled",
      "validation_tolerance"] (encode o) =
      some [some (encode o.rowsPerTick), some (encode o.pointsPerTick),
        some (encode o.overlapPolicy), some (encode o.validateCompiled),
        some (encode o.validationTolerance)] :=
  fields?_record (by simp)

instance : LawfulCodec (Options Float) where
  wellWritten_encode o := wellWritten_record (by simp [wellWritten_encode])
  decode?_encode {o} h := by
    have htolerance : Readable o.validationTolerance := h
    simp [decode?, o.fields?_encode, optional?_encode_of_nil o.rowsPerTick rfl,
      optional?_encode_of_nil o.pointsPerTick rfl, optional?_encode_of_nil o.overlapPolicy rfl,
      optional?_encode_of_nil o.validateCompiled rfl, optional?_encode htolerance]
  decode?_encode_eq_none {o} h := by
    have htolerance : ¬ AllFinite o.validationTolerance := h
    simp [decode?, o.fields?_encode, optional?_encode_eq_none htolerance]

/-! ### Views

A view is not read with a scale that cannot be used, whatever its doubles. -/

instance : HasDoubles (Viewport Float) := ⟨fun v => doubles v.center ++ doubles v.unitsPerPixel⟩

theorem Viewport.fields?_encode (v : Viewport Float) :
    fields? ["center_x", "center_y", "units_per_pixel"] (encode v) =
      some [some (encode v.center.re), some (encode v.center.im),
        some (encode v.unitsPerPixel)] :=
  fields?_record (by simp)

theorem Viewport.wellWritten_encode (v : Viewport Float) : (encode v).WellWritten :=
  wellWritten_record (by simp [LawfulCodec.wellWritten_encode])

theorem Viewport.decode?_encode {v : Viewport Float} (hscale : isUsableScale v.unitsPerPixel = true)
    (h : Readable v) : decode? (encode v) = some v := by
  obtain ⟨hcenter, hunits⟩ := List.forall_mem_append.mp h
  simp only [decode?, v.fields?_encode]
  refine (required?_center_size hcenter hunits).trans ?_
  rw [Viewport.ofScale, if_pos hscale]
  rfl

theorem Viewport.decode?_encode_eq_none {v : Viewport Float} (h : ¬ AllFinite v) :
    decode? (encode v) = (none : Option (Viewport Float)) := by
  simp only [decode?, v.fields?_encode]
  exact required?_center_size_eq_none (mt List.forall_mem_append.mpr h)

/-! ### What is read is finite -/

/-- A literal stands for a double only if its value is not too large for one. -/
theorem isFinite_of_double? {literal : List Char} {x : Float} (h : double? literal = some x) :
    x.isFinite = true := by
  simp only [double?] at h
  split at h
  · next hsize =>
      cases h
      split
      · exact Binary64.isFinite_neg hsize
      · exact hsize
  · cases h

theorem allFinite_double {j : Json} {x : Float} (h : decode? j = some x) : AllFinite x := by
  cases j with
  | number literal =>
      intro y hy
      rw [List.mem_singleton.mp hy]
      exact isFinite_of_double? h
  | _ => cases h

theorem Complex.allFinite_of_decode? {j : Json} {z : Complex Float} (h : decode? j = some z) :
    AllFinite z := by
  simp only [decode?] at h
  split at h
  · simp only [Option.bind_eq_bind, Option.bind_eq_some_iff] at h
    obtain ⟨x, hx, y, hy, hz⟩ := h
    cases hz
    exact List.forall_mem_append.mpr ⟨allFinite_double hx, allFinite_double hy⟩
  · cases h

/-- A field that may be left out is as finite as what is read for it and what stands for it. -/
theorem allFinite_of_optional? {β : Type} [Codec β] [HasDoubles β] {standard b : β}
    {field : Option Json} (hstandard : AllFinite standard)
    (hread : ∀ {j}, decode? j = some b → AllFinite b) (h : optional? standard field = some b) :
    AllFinite b := by
  cases field with
  | none =>
      cases h
      exact hstandard
  | some j => exact hread h

/-- **The doubles of a configuration that was read are finite**, those it left out among them. -/
theorem Config.allFinite_of_decode? {j : Json} {c : Config Float} (h : decode? j = some c) :
    AllFinite c := by
  simp only [decode?] at h
  split at h
  · simp only [Option.bind_eq_bind, Option.bind_eq_some_iff] at h
    obtain ⟨kind, -, cap, -, palette, -, z, hz, power, hpower, hc⟩ := h
    cases hc
    exact List.forall_mem_append.mpr
      ⟨allFinite_of_optional? (by decide +kernel) Complex.allFinite_of_decode? hz,
        allFinite_of_optional? (by decide +kernel) allFinite_double hpower⟩
  · cases h

/-! ### Through text -/

/-- What is written for a value whose doubles are finite and read back is read as that value, and
what is written for a value with any other double is not read. -/
def RoundTrips (β : Type) [Codec β] [HasDoubles β] : Prop :=
  ∀ b : β, (AllFinite b → (∀ x ∈ doubles b, ReadsBack x) → deserialize? (serialize b) = some b) ∧
    (¬ AllFinite b → deserialize? (serialize b) = (none : Option β))

theorem roundTrips {β : Type} [Codec β] [HasDoubles β] [LawfulCodec β] : RoundTrips β := by
  intro b
  rw [deserialize?_serialize (wellWritten_encode b)]
  exact ⟨fun hfin hback => decode?_encode fun x hx => ⟨hfin x hx, hback x hx⟩,
    decode?_encode_eq_none⟩

/-- **Data is read back from its text.**  A view needs a scale that can be used, and options are
read with the check that a session makes. -/
theorem json_roundTrip :
    RoundTrips Kind ∧ RoundTrips Palette ∧ RoundTrips OverlapPolicy ∧
    RoundTrips (ViewPreset Float) ∧ RoundTrips (Config Float) ∧ RoundTrips PixelRect ∧
    RoundTrips Progress ∧ RoundTrips BackendUsed ∧ RoundTrips Status ∧
    (∀ v : Viewport Float,
      (isUsableScale v.unitsPerPixel = true → AllFinite v → (∀ x ∈ doubles v, ReadsBack x) →
        deserialize? (serialize v) = some v) ∧
      (¬ AllFinite v → deserialize? (serialize v) = (none : Option (Viewport Float)))) ∧
    ∀ o : Options Float,
      (o.validate = .ok o → AllFinite o → (∀ x ∈ doubles o, ReadsBack x) →
        Options.ofText (serialize o) = .ok o) ∧
      (¬ AllFinite o → Options.ofText (serialize o) = .error .parse) := by
  refine ⟨roundTrips, roundTrips, roundTrips, roundTrips, roundTrips, roundTrips, roundTrips,
    roundTrips, roundTrips, fun v => ?_, fun o => ?_⟩
  · rw [deserialize?_serialize v.wellWritten_encode]
    exact ⟨fun hscale hfin hback =>
      Viewport.decode?_encode hscale fun x hx => ⟨hfin x hx, hback x hx⟩,
      Viewport.decode?_encode_eq_none⟩
  · unfold Options.ofText
    constructor
    · intro hvalid hfin hback
      rw [(roundTrips o).1 hfin hback]
      exact hvalid
    · intro h
      rw [(roundTrips o).2 h]

/-- Such values with a negative zero, with a name that has to be escaped, and with no number. -/
theorem json_roundTrip_awkward :
    let status : Status := ⟨.lambda, .compiled "a\"b\\c\nd\x01é", -0.0, true⟩
    let view : Viewport Float := ⟨⟨-0.0, 0.1⟩, 0.004⟩
    let options : Options Float := .standard
    let config : Config Float := { Config.standard with multibrotPower := 0.0 / 0.0 }
    deserialize? (serialize status) = some status ∧
      deserialize? (serialize view) = some view ∧
      Options.ofText (serialize options) = .ok options ∧
      deserialize? (serialize config) = (none : Option (Config Float)) := by
  obtain ⟨_, _, _, _, hconfig, _, _, _, hstatus, hview, hoptions⟩ := json_roundTrip
  exact ⟨(hstatus _).1 (by decide +kernel) (by decide +kernel),
    (hview _).1 (by decide +kernel) (by decide +kernel) (by decide +kernel),
    (hoptions _).1 rfl (by decide +kernel) (by decide +kernel), (hconfig _).2 (by decide +kernel)⟩

end FractalRender
