import DataGrid.Integer
import DataGrid.Json.Basic

/-!
# JSON text

`Json.render` writes a tree without blanks: strings escape the quote, the backslash and control
characters, doubles have the fewest digits that read back and always a point or a power of ten.
-/

namespace DataGrid.Json

/-- The doubles of JSON text: exponents of the leading digit from -5 to 15 are written without a
power of ten, and what is no finite number is the null literal. -/
def floatLayout : Binary64.Layout where
  tie := .toEven
  pointZero := true
  positional := some (-5, 16)
  nan := "null"
  infinity := "null"

/-- The text of a double. -/
def floatText (x : Binary64) : String := if x.isFinite then floatLayout.render x else "null"

/-- A character as it stands between the quotes of a string. -/
def escapeChar (c : Char) : List Char :=
  if c = '"' then ['\\', '"']
  else if c = '\\' then ['\\', '\\']
  else if c = '\x08' then ['\\', 'b']
  else if c = '\x0c' then ['\\', 'f']
  else if c = '\n' then ['\\', 'n']
  else if c = '\r' then ['\\', 'r']
  else if c = '\t' then ['\\', 't']
  else if c.toNat < 32 then
    '\\' :: 'u' :: '0' :: '0' :: [Nat.digitChar (c.toNat / 16), Nat.digitChar (c.toNat % 16)]
  else [c]

/-- A string between quotes. -/
def quote (s : String) : String :=
  String.ofList ('"' :: s.toList.flatMap escapeChar ++ ['"'])

/-- Texts between brackets, with commas between them. -/
def arrayText (items : List String) : String := "[" ++ String.intercalate "," items ++ "]"

/-- Named texts between braces, with commas between them. -/
def objectText (members : Members String) : String :=
  let pairs := members.map fun (key, text) => quote key ++ ":" ++ text
  "\x7b" ++ String.intercalate "," pairs ++ "\x7d"

mutual

/-- The text of a tree. -/
def render : Json → String
  | .null => "null"
  | .bool b => if b then "true" else "false"
  | .int n => String.ofList (Integer.text n)
  | .float x => floatText x
  | .string s => quote s
  | .array items => arrayText (renderItems items)
  | .object members => objectText (renderMembers members)

/-- The texts of the items of an array. -/
def renderItems : List Json → List String
  | [] => []
  | item :: rest => item.render :: renderItems rest

/-- The texts of the members of an object. -/
def renderMembers : Members Json → Members String
  | [] => []
  | (key, value) :: rest => (key, value.render) :: renderMembers rest

end

end DataGrid.Json
