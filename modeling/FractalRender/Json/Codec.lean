import FractalRender.Json.Printer
import FractalRender.Json.Reader

/-!
# Codecs

A codec writes the values of a type as JSON and reads them back.  This file has the codecs of the
plain types and the two shapes that all others are made of: a record, written as an object of its
fields, and a choice among names.
-/

namespace FractalRender.Json

/-- A type whose values are written as JSON and read back. -/
class Codec (β : Type) where
  /-- The value as JSON. -/
  encode : β → Json
  /-- The value that a JSON value stands for. -/
  decode? : Json → Option β

export Codec (encode decode?)

/-- A value as compact JSON text. -/
def serialize {β : Type} [Codec β] (b : β) : String := (encode b).render

/-- The value that a JSON text stands for. -/
def deserialize? {β : Type} [Codec β] (text : String) : Option β := (parse? text).bind decode?

/-- A text as JSON. -/
def ofText (s : String) : Json := .string (escape s.toList)

/-- The text that a JSON value stands for. -/
def asText? : Json → Option String
  | .string literal => text? literal
  | _ => none

instance : Codec String where
  encode := ofText
  decode? := asText?

instance : Codec Bool where
  encode := .bool
  decode?
    | .bool b => some b
    | _ => none

instance : Codec UInt32 where
  encode n := .number (Nat.toDigits 10 n.toNat)
  decode?
    | .number literal => word? literal
    | _ => none

/-- A double is written by its shortest digits; what is not finite is written as nothing, and
nothing is not read as a double. -/
instance : Codec Float where
  encode x := if x.isFinite then .number (numberLayout.writeFloat x) else .null
  decode?
    | .number literal => double? literal
    | _ => none

/-! ### Records -/

/-- A record as an object of its fields, in order. -/
def record (fields : List (String × Json)) : Json :=
  .object (fields.map fun (name, value) => (escape name.toList, value))

/-- The members of an object with their keys as text; nothing when a key stands for no text. -/
def keyed? (members : List (List Char × Json)) : Option (List (String × Json)) :=
  members.mapM fun (key, value) => (text? key).map fun name => (name, value)

/-- The value given for a name: nothing inside when there is none, and nothing at all when there
is more than one. -/
def onlyValue? (members : List (String × Json)) (name : String) : Option (Option Json) :=
  match members.filter fun m => m.1 == name with
  | [] => some none
  | [m] => some (some m.2)
  | _ => none

/-- What a JSON value gives for the fields of a record.  An object gives them by name, in any
order, and may have other members; an array gives the first fields in order and nothing more. -/
def fields? (names : List String) : Json → Option (List (Option Json))
  | .object members => (keyed? members).bind fun members => names.mapM (onlyValue? members)
  | .array items =>
    if items.length ≤ names.length then
      some ((List.range names.length).map fun i => items[i]?)
    else none
  | _ => none

/-- A field that must be given. -/
def required? {β : Type} [Codec β] (field : Option Json) : Option β := field.bind decode?

/-- A field that keeps `standard` when it is not given. -/
def optional? {β : Type} [Codec β] (standard : β) : Option Json → Option β
  | none => some standard
  | some j => decode? j

/-! ### Choices among names -/

/-- The value of a name written as a string, or as an object whose one key is the name and whose
value is null. -/
def choice? {β : Type} (names : List (String × β)) : Json → Option β
  | .string literal => (text? literal).bind (List.lookup · names)
  | .object [(key, .null)] => (text? key).bind (List.lookup · names)
  | _ => none

end FractalRender.Json
