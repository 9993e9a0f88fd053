/-!
# JSON values

The tree of a JSON text.  Numbers and strings stay as they were written: what a number or a
string means is asked of its literal (`FractalRender.Json.Number`, `FractalRender.Json.Text`), so that a
value nobody asks for need only be well written.
-/

namespace FractalRender

/-- A JSON value. -/
inductive Json where
  | null
  | bool (b : Bool)
  /-- A number by its literal. -/
  | number (literal : List Char)
  /-- A string by what stands between its quotes. -/
  | string (literal : List Char)
  | array (items : List Json)
  /-- An object by its members in order, each key by what stands between its quotes. -/
  | object (members : List (List Char × Json))

end FractalRender
