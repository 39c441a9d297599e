import DataGrid.Binary64.Decimal
import DataGrid.Members

/-!
# JSON trees

* `Json` is the tree of a JSON text. Numbers without a fraction or a power of ten that fit into a
  64-bit word are integers, all others are doubles.
* `Json.object` keeps its members in the order given. Trees that are read have them in key order, as
  `Json.ofPairs` makes them.
-/

namespace DataGrid

/-- A JSON tree. -/
inductive Json where
  /-- the null literal -/
  | null
  /-- a truth value -/
  | bool (b : Bool)
  /-- an integer of at most 64 bits, signed or unsigned -/
  | int (n : Int)
  /-- any other number -/
  | float (x : Binary64)
  /-- a string -/
  | string (s : String)
  /-- an array -/
  | array (items : List Json)
  /-- an object -/
  | object (members : List (String × Json))
  deriving Inhabited

namespace Json

/-- The object with the given pairs; the last value of a repeated key stays. -/
def ofPairs (pairs : List (String × Json)) : Json := .object (Members.ofList pairs)

/-- The value of a member of an object. -/
def member? : Json → String → Option Json
  | .object members, key => members.lookup key
  | _, _ => none

end Json

end DataGrid
