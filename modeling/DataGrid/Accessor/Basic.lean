import DataGrid.Conversion
import DataGrid.Error

/-!
# Accessors

An `Accessor` is a path of a shape as a chain of steps, with the type of what it reads.

* `Accessor.read` follows the steps through a record. A null in front of a step that needs a value
  ends the reading: with a null if the accessor guards nulls, and with an error otherwise.
* `Accessor.forceText` and `Accessor.addLower` append steps that make text of the value and fold its
  case; folding swallows a text step right before it.
-/

namespace DataGrid

/-- A step of an accessor. -/
inductive Step where
  /-- reads a member of a known type -/
  | member (name : String) (type : FieldType) (nullable : Bool)
  /-- reads a member below a dynamic one -/
  | dynamicMember (name : String)
  /-- makes text of a value of a type -/
  | stringify (source : FieldType)
  /-- folds the case of a text, or of the text of a value of a type -/
  | lowercase (source : Option FieldType)

/-- What a step makes of a value. -/
inductive StepResult where
  /-- a value for the next step -/
  | value (v : Value)
  /-- nothing, for want of a value -/
  | missing
  /-- nothing, for a value of another kind -/
  | mismatch (found : String)

namespace Step

/-- The member of a record with a name, or the first in key order whose name differs in the case of
ASCII letters; null if there is none. -/
def memberOf (members : List (String × Value)) (name : String) : Value :=
  match members.lookup name with
  | some v => v
  | none =>
    match members.find? fun pair => Text.sameIgnoringAsciiCase pair.1 name with
    | some pair => pair.2
    | none => .null

/-- The text of a value of a type; a member of an enumeration has its name. -/
def textOf (type : FieldType) (v : Value) : String :=
  match type, v with
  | .enum e, .int i => (e.memberName? i).getD v.text
  | _, _ => v.text

/-- Reads a member of a value. -/
def readMember (name : String) : Value → StepResult
  | .null => .missing
  | .object members => .value (memberOf members name)
  | v => .mismatch v.kind

/-- What the step makes of a value. -/
def apply : Step → Value → StepResult
  | member name _ _, v => readMember name v
  | dynamicMember name, v => readMember name v
  | stringify source, .null => if source.admitsNull then .missing else .value (.string "")
  | stringify source, v => .value (.string (textOf source v))
  | lowercase (some source), .null =>
    if source.admitsNull then .missing else .value (.string "")
  | lowercase none, .null => .missing
  | lowercase _, .string s => .value (.string (Text.lowerCase s))
  | lowercase (some source), v => .value (.string (Text.lowerCase (textOf source v)))
  | lowercase none, v => .value (.string (Text.lowerCase v.text))

end Step

/-- A path of a shape as a chain of steps. -/
structure Accessor where
  /-- the path as it was written -/
  path : String
  /-- the steps, first to last -/
  steps : List Step
  /-- the type of what is read -/
  type : FieldType
  /-- whether a null may be read -/
  nullable : Bool
  /-- whether a null on the way is read as null -/
  guardsNulls : Bool

namespace Accessor

variable (a : Accessor)

/-- How a reading ends for want of a value. -/
def onMissing : Except ReadError Value :=
  if a.guardsNulls then .ok .null else .error (.nullReference a.path)

/-- Follows steps from a value. -/
def follow : List Step → Value → Except ReadError Value
  | [], v => .ok v
  | step :: rest, v =>
    match step.apply v with
    | .value w => follow rest w
    | .missing => a.onMissing
    | .mismatch found => .error (.typeMismatch "object" found)

/-- The value that a record has at the path. -/
def read (record : Value) : Except ReadError Value := a.follow a.steps record

/-- Makes text of what is read, unless it is text. -/
def forceText : Accessor :=
  if a.type.isText then a
  else { a with steps := a.steps ++ [.stringify a.type], type := .string }

/-- Folds the case of what is read, in place of a text step at the end. -/
def addLower : Accessor :=
  match a.steps.getLast? with
  | some (.stringify source) =>
    { a with steps := a.steps.dropLast ++ [.lowercase (some source)], type := .string }
  | _ => { a with steps := a.steps ++ [.lowercase none], type := .string }

end Accessor

end DataGrid
