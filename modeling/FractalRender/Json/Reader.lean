import FractalRender.Json.Number
import FractalRender.Json.Text
import FractalRender.Json.Value

/-!
# Reading JSON

`Json.parse?` reads one value with only white space around it, by the grammar of JSON and
nothing more.  Each reader takes the characters and gives what it read with the characters left.
-/

namespace FractalRender.Json

/-- The characters that may stand between the parts of a value. -/
def isBlank (c : Char) : Bool := c == ' ' || c == '\n' || c == '\t' || c == '\r'

/-- The characters without white space in front. -/
def skipBlank (s : List Char) : List Char := s.dropWhile isBlank

/-- What stands up to the closing quote, if it is a well-written literal, and the rest. -/
def readLiteral? : List Char → Option (List Char × List Char)
  | [] => none
  | '"' :: rest => some ([], rest)
  | '\\' :: 'u' :: a :: b :: c :: d :: rest =>
    if (hexWord? a b c d).isSome then
      (readLiteral? rest).map fun (s, rest) => ('\\' :: 'u' :: a :: b :: c :: d :: s, rest)
    else none
  | '\\' :: c :: rest =>
    if (shortEscape? c).isSome then
      (readLiteral? rest).map fun (s, rest) => ('\\' :: c :: s, rest)
    else none
  | c :: rest =>
    if c = '\\' || c.toNat < 0x20 then none
    else (readLiteral? rest).map fun (s, rest) => (c :: s, rest)

/-- One digit or more, and the rest. -/
def readDigits? (s : List Char) : Option (List Char × List Char) :=
  let ds := s.takeWhile isDigit
  if ds.isEmpty then none else some (ds, s.dropWhile isDigit)

/-- The whole part of a number: 0, or digits that do not start with 0. -/
def readWhole? : List Char → Option (List Char × List Char)
  | '0' :: rest => some (['0'], rest)
  | s => readDigits? s

/-- The point and the digits after it, if there is a point. -/
def readFraction? : List Char → Option (List Char × List Char)
  | '.' :: rest => (readDigits? rest).map fun (ds, rest) => ('.' :: ds, rest)
  | s => some ([], s)

/-- The sign of an exponent, if there is one. -/
def readSign : List Char → List Char × List Char
  | '+' :: rest => (['+'], rest)
  | '-' :: rest => (['-'], rest)
  | s => ([], s)

/-- The exponent, if there is one. -/
def readExponent? : List Char → Option (List Char × List Char)
  | c :: rest =>
    if c = 'e' || c = 'E' then
      let (sign, rest) := readSign rest
      (readDigits? rest).map fun (ds, rest) => (c :: (sign ++ ds), rest)
    else some ([], c :: rest)
  | [] => some ([], [])

/-- A number literal. -/
def readNumber? (s : List Char) : Option (List Char × List Char) := do
  let (sign, s) := match s with
    | '-' :: rest => (['-'], rest)
    | s => ([], s)
  let (whole, s) ← readWhole? s
  let (fraction, s) ← readFraction? s
  let (exponent, s) ← readExponent? s
  some (sign ++ whole ++ fraction ++ exponent, s)

/-- A key with its colon. -/
def readKey? (s : List Char) : Option (List Char × List Char) :=
  match skipBlank s with
  | '"' :: rest =>
    match readLiteral? rest with
    | none => none
    | some (key, rest) =>
      match skipBlank rest with
      | ':' :: rest => some (key, rest)
      | _ => none
  | _ => none

mutual

/-- A value.  The number bounds the depth of calls; twice the length of the text is enough. -/
def readValue? : Nat → List Char → Option (Json × List Char)
  | 0, _ => none
  | n + 1, s =>
    match skipBlank s with
    | 'n' :: 'u' :: 'l' :: 'l' :: rest => some (.null, rest)
    | 't' :: 'r' :: 'u' :: 'e' :: rest => some (.bool true, rest)
    | 'f' :: 'a' :: 'l' :: 's' :: 'e' :: rest => some (.bool false, rest)
    | '"' :: rest => (readLiteral? rest).map fun (lit, rest) => (.string lit, rest)
    | '[' :: rest =>
      match skipBlank rest with
      | ']' :: rest => some (.array [], rest)
      | _ => (readItems? n rest).map fun (items, rest) => (.array items, rest)
    | '{' :: rest =>
      match skipBlank rest with
      | '}' :: rest => some (.object [], rest)
      | _ => (readMembers? n rest).map fun (members, rest) => (.object members, rest)
    | s => (readNumber? s).map fun (lit, rest) => (.number lit, rest)

/-- The items of an array up to its end. -/
def readItems? : Nat → List Char → Option (List Json × List Char)
  | 0, _ => none
  | n + 1, s =>
    match readValue? n s with
    | none => none
    | some (item, rest) =>
      match skipBlank rest with
      | ',' :: rest => (readItems? n rest).map fun (items, rest) => (item :: items, rest)
      | ']' :: rest => some ([item], rest)
      | _ => none

/-- The members of an object up to its end. -/
def readMembers? : Nat → List Char → Option (List (List Char × Json) × List Char)
  | 0, _ => none
  | n + 1, s =>
    match readKey? s with
    | none => none
    | some (key, rest) =>
      match readValue? n rest with
      | none => none
      | some (value, rest) =>
        match skipBlank rest with
        | ',' :: rest => (readMembers? n rest).map fun (ms, rest) => ((key, value) :: ms, rest)
        | '}' :: rest => some ([(key, value)], rest)
        | _ => none

end

/-- The value of a JSON text. -/
def parse? (text : String) : Option Json :=
  let s := text.toList
  match readValue? (2 * s.length + 2) s with
  | some (value, rest) => if (skipBlank rest).isEmpty then some value else none
  | none => none

end FractalRender.Json
