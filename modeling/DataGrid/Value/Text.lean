import DataGrid.Value.Json

/-!
# Values as text

* `Value.text` is the plain text that text operators and untyped comparisons see; a null has the
  empty text, arrays and objects have their JSON text.
* `Value.shown` is the text in messages: nulls are named and strings stand between quotes.
-/

namespace DataGrid.Value

/-- The plain text of doubles: digits without a power of ten, and no point in integral values. -/
def floatLayout : Binary64.Layout where
  tie := .away
  pointZero := false
  positional := none
  nan := "NaN"
  infinity := "inf"

/-- The text of a truth value. -/
def boolText (b : Bool) : String := if b then "true" else "false"

/-- The plain text of a value. -/
def text : Value → String
  | null => ""
  | bool b => boolText b
  | int i => String.ofList (Integer.text i.toInt)
  | float x => floatLayout.render x
  | string s => s
  | dateTime d => String.ofList d.text
  | span a => String.ofList a.text
  | uuid u => String.ofList u.text
  | array items => (toJson (array items)).render
  | object members => (toJson (object members)).render

/-- The text of a value in messages. -/
def shown : Value → String
  | null => "null"
  | string s => "\"" ++ s ++ "\""
  | v => v.text

end DataGrid.Value
