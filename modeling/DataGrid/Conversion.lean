import DataGrid.Binary64.Decimal
import DataGrid.DateTime.Parser
import DataGrid.Shape
import DataGrid.Value.Text

/-!
# Conversion of literals

`FieldType.convert` converts a loosely typed literal to a type: numbers, moments, spans, identifiers
and names of enumerations may be written as texts. A null stays null in every type.
-/

namespace DataGrid

/-- A literal that has no counterpart in a type. -/
structure ConversionFailure where
  /-- the literal, as it is shown -/
  literal : String
  /-- the name of the type -/
  target : String
  deriving DecidableEq

namespace ConversionFailure

/-- The text of the failure. -/
def message (f : ConversionFailure) : String := "cannot convert " ++ f.literal ++ " to " ++ f.target

end ConversionFailure

namespace Value

/-- The text of a literal without the blanks around it. -/
def trimmed (s : String) : List Char := Text.trim s.toList

/-- The integer that a literal gives: a double is rounded to nearest, ties to even, and the one
right above the greatest integer becomes that. -/
def literalInteger? : Value → Option Int64
  | int i => some i
  | float x =>
    let n := x.roundToInt
    if x.isFinite && decide (Integer.least ≤ n ∧ n ≤ Integer.greatest + 1) then
      some (Integer.saturate n)
    else none
  | bool b => some (if b then 1 else 0)
  | string s => Integer.ofText? (trimmed s)
  | _ => none

/-- The double that a literal gives. -/
def literalDouble? : Value → Option Binary64
  | int i => some (Binary64.ofInt i.toInt)
  | float x => some x
  | bool b => some (Binary64.ofInt (if b then 1 else 0))
  | string s => Binary64.ofText? (trimmed s)
  | _ => none

/-- The truth value that a literal gives. -/
def literalTruth? : Value → Option Bool
  | bool b => some b
  | int i => some (i != 0)
  | string s =>
    let word := Text.lowerAscii (String.ofList (trimmed s))
    if word == "true" then some true else if word == "false" then some false else none
  | _ => none

/-- The member of an enumeration that a literal gives, by name or by number. -/
def literalMember? (e : Enumeration) : Value → Option Int64
  | int i => some i
  | string s => (e.memberValue? (String.ofList (trimmed s))).or (Integer.ofText? (trimmed s))
  | _ => none

end Value

namespace FieldType

/-- Whether an integer fits into 32 bits. -/
def fits32 (i : Int64) : Bool :=
  decide (-2147483648 ≤ i.toInt ∧ i.toInt ≤ 2147483647)

open Value in
/-- The counterpart of a literal that is not null. -/
def convert? : FieldType → Value → Option Value
  | dynamic, v => some v
  | bool, v => v.literalTruth?.map .bool
  | int32, v => (v.literalInteger?.filter fits32).map .int
  | int64, v => v.literalInteger?.map .int
  | float32, v | float64, v => v.literalDouble?.map .float
  | string, .array _ | string, .object _ => none
  | string, v => some (.string v.text)
  | dateTime, .dateTime d => some (.dateTime d)
  | dateTime, .string s => (DateTime.ofText? s).map .dateTime
  | dateTime, _ => none
  | span, .span a => some (.span a)
  | span, .string s => (Span.ofText? s).map .span
  | span, _ => none
  | uuid, .uuid u => some (.uuid u)
  | uuid, .string s => (Uuid.ofText? (trimmed s)).map .uuid
  | uuid, _ => none
  | enum e, v => (v.literalMember? e).map .int
  | object _, _ => none
  | custom c, v =>
    match c.convert? with
    | some f => f v
    | none => some v

/-- The counterpart of a literal in a type. -/
def convert (t : FieldType) (literal : Value) : Except ConversionFailure Value :=
  if literal.isNull then .ok .null
  else
    match t.convert? literal with
    | some v => .ok v
    | none => .error ⟨literal.shown, t.name⟩

end FieldType

end DataGrid
