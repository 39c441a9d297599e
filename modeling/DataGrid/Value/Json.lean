import DataGrid.DateTime.Text
import DataGrid.Json.Printer
import DataGrid.Span.Text
import DataGrid.Value.Basic

/-!
# Values and JSON

* `Value.toJson` writes a value as a tree: moments, spans and identifiers become their texts, and a
  double that is no finite number becomes null.
* `Value.ofJson` reads a tree: a number is an integer if it is one of 64 bits with sign.
* `Value.encode` walks a value with an `Encoder`, which says what each kind becomes. `Encoder.tree`
  builds a tree, and `Encoder.text` the text of one.
-/

namespace DataGrid

/-- What a format makes of each kind of JSON value. -/
structure Encoder (α : Type) where
  /-- the null literal -/
  null : α
  /-- a truth value -/
  bool : Bool → α
  /-- an integer -/
  int : Int → α
  /-- a double -/
  float : Binary64 → α
  /-- a string -/
  string : String → α
  /-- an array -/
  array : List α → α
  /-- an object -/
  object : List (String × α) → α

namespace Encoder

/-- Builds a tree. -/
def tree : Encoder Json where
  null := .null
  bool := .bool
  int := .int
  float x := if x.isFinite then .float x else .null
  string := .string
  array := .array
  object := .object

/-- Builds the text of a tree. -/
def text : Encoder String where
  null := "null"
  bool b := if b then "true" else "false"
  int n := String.ofList (Integer.text n)
  float := Json.floatText
  string := Json.quote
  array := Json.arrayText
  object := Json.objectText

end Encoder

namespace Value

mutual

/-- The tree of a value. -/
def toJson : Value → Json
  | null => .null
  | bool b => .bool b
  | int i => .int i.toInt
  | float x => if x.isFinite then .float x else .null
  | string s => .string s
  | dateTime d => .string (String.ofList d.text)
  | span a => .string (String.ofList a.text)
  | uuid u => .string (String.ofList u.text)
  | array items => .array (itemsToJson items)
  | object members => .object (membersToJson members)

/-- The trees of a list of values. -/
def itemsToJson : List Value → List Json
  | [] => []
  | v :: rest => v.toJson :: itemsToJson rest

/-- The trees of named values. -/
def membersToJson : List (String × Value) → List (String × Json)
  | [] => []
  | (k, v) :: rest => (k, v.toJson) :: membersToJson rest

end

mutual

/-- The value that a tree gives. -/
def ofJson : Json → Value
  | .null => null
  | .bool b => bool b
  | .int n =>
    match Integer.narrow? n with
    | some i => int i
    | none => float (Binary64.ofInt n)
  | .float x => float x
  | .string s => string s
  | .array items => array (ofItems items)
  | .object members => object (ofMembers members)

/-- The values that trees give. -/
def ofItems : List Json → List Value
  | [] => []
  | j :: rest => ofJson j :: ofItems rest

/-- The named values that named trees give. -/
def ofMembers : List (String × Json) → List (String × Value)
  | [] => []
  | (k, j) :: rest => (k, ofJson j) :: ofMembers rest

end

section Encode

variable {α : Type} (e : Encoder α)

mutual

/-- What an encoder makes of a value. -/
def encode : Value → α
  | null => e.null
  | bool b => e.bool b
  | int i => e.int i.toInt
  | float x => e.float x
  | string s => e.string s
  | dateTime d => e.string (String.ofList d.text)
  | span a => e.string (String.ofList a.text)
  | uuid u => e.string (String.ofList u.text)
  | array items => e.array (encodeItems items)
  | object members => e.object (encodeMembers members)

/-- What an encoder makes of the values of a list. -/
def encodeItems : List Value → List α
  | [] => []
  | v :: rest => encode v :: encodeItems rest

/-- What an encoder makes of named values. -/
def encodeMembers : List (String × Value) → List (String × α)
  | [] => []
  | (k, v) :: rest => (k, encode v) :: encodeMembers rest

end

end Encode

end Value

end DataGrid
