import FractalRender.Json.Value

/-!
# Writing JSON

The compact form: no white space, members in their order, literals as they are.
-/

namespace FractalRender.Json

/-- A literal between quotes. -/
def quoted (literal : List Char) : List Char := '"' :: (literal ++ ['"'])

mutual

/-- A value in compact form. -/
def write : Json → List Char
  | .null => ['n', 'u', 'l', 'l']
  | .bool true => ['t', 'r', 'u', 'e']
  | .bool false => ['f', 'a', 'l', 's', 'e']
  | .number literal => literal
  | .string literal => quoted literal
  | .array [] => ['[', ']']
  | .array (x :: xs) => '[' :: (x.write ++ writeItems xs)
  | .object [] => ['{', '}']
  | .object ((k, v) :: ms) => '{' :: (quoted k ++ ':' :: (v.write ++ writeMembers ms))

/-- The items after the first, and the end of the array. -/
def writeItems : List Json → List Char
  | [] => [']']
  | x :: xs => ',' :: (x.write ++ writeItems xs)

/-- The members after the first, and the end of the object. -/
def writeMembers : List (List Char × Json) → List Char
  | [] => ['}']
  | (k, v) :: ms => ',' :: (quoted k ++ ':' :: (v.write ++ writeMembers ms))

end

/-- A value as compact text. -/
def render (j : Json) : String := String.ofList j.write

end FractalRender.Json
