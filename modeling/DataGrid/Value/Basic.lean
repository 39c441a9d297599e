import DataGrid.Binary64.Round
import DataGrid.DateTime.Basic
import DataGrid.Members
import DataGrid.Span.Basic
import DataGrid.Uuid

/-!
# Values

Records, literals of criteria, group keys and results of aggregates are all a `Value`.

* `Value.same` is sameness as a key: values of different kinds differ, all NaN are one value and so
  are the two zeros of doubles. It is reflexive (`same_refl`).
* `Value.groupKey` maps a value to the key it is grouped under.
-/

namespace DataGrid

/-- A dynamically typed value. -/
inductive Value where
  /-- no value -/
  | null
  /-- a truth value -/
  | bool (b : Bool)
  /-- an integer of 64 bits -/
  | int (i : Int64)
  /-- a double -/
  | float (x : Binary64)
  /-- a text -/
  | string (s : String)
  /-- a moment without a zone -/
  | dateTime (d : DateTime)
  /-- a span of time -/
  | span (a : Span)
  /-- an identifier -/
  | uuid (u : Uuid)
  /-- a list of values -/
  | array (items : List Value)
  /-- named values, in key order -/
  | object (members : List (String × Value))
  deriving Inhabited

namespace Value

/-- Whether there is no value. -/
def isNull : Value → Bool
  | null => true
  | _ => false

theorem isNull_iff {v : Value} : v.isNull = true ↔ v = .null := by
  cases v <;> simp [isNull]

/-- The name of the kind of a value. -/
def kind : Value → String
  | null => "null"
  | bool _ => "bool"
  | int _ => "int"
  | float _ => "float"
  | string _ => "string"
  | dateTime _ => "datetime"
  | span _ => "duration"
  | uuid _ => "uuid"
  | array _ => "array"
  | object _ => "object"

/-- The value of a member of an object. -/
def member? : Value → String → Option Value
  | object members, name => members.lookup name
  | _, _ => none

/-- The text of a string. -/
def asString? : Value → Option String
  | string s => some s
  | _ => none

/-- The word of an integer. -/
def asInt? : Value → Option Int64
  | int i => some i
  | _ => none

/-- The double of a number. -/
def asFloat? : Value → Option Binary64
  | int i => some (Binary64.ofInt i.toInt)
  | float x => some x
  | _ => none

mutual

/-- Sameness of two values as keys. -/
def same : Value → Value → Bool
  | null, null => true
  | bool a, bool b => a == b
  | int a, int b => a == b
  | float a, float b => a.same b
  | string a, string b => a == b
  | dateTime a, dateTime b => a == b
  | span a, span b => a == b
  | uuid a, uuid b => a == b
  | array a, array b => sameItems a b
  | object a, object b => sameMembers a b
  | _, _ => false

/-- Sameness of two lists item by item. -/
def sameItems : List Value → List Value → Bool
  | [], [] => true
  | a :: as, b :: bs => a.same b && sameItems as bs
  | _, _ => false

/-- Sameness of two lists of members, names included. -/
def sameMembers : List (String × Value) → List (String × Value) → Bool
  | [], [] => true
  | (k, a) :: as, (l, b) :: bs => k == l && a.same b && sameMembers as bs
  | _, _ => false

end

/-- The bound below which an integral double is grouped with the integer it equals. -/
def integralLimit : Nat := 9000000000000000

/-- The key under which a value is grouped: an integral double of moderate size becomes the integer
that it equals, every other value is its own key. -/
def groupKey : Value → Value
  | float x =>
    if x.isIntegral && decide (x.roundToInt.natAbs < integralLimit) then
      int (Int64.ofInt x.roundToInt)
    else float x
  | v => v

/-! ## Sameness -/

mutual

theorem same_refl : (v : Value) → v.same v = true
  | null => rfl
  | bool _ | int _ | string _ | dateTime _ | span _ | uuid _ => by simp [same]
  | float x => by simp [same, Binary64.same_refl]
  | array items => by simp [same, sameItems_refl items]
  | object members => by simp [same, sameMembers_refl members]

theorem sameItems_refl : (items : List Value) → sameItems items items = true
  | [] => rfl
  | a :: as => by simp [sameItems, same_refl a, sameItems_refl as]

theorem sameMembers_refl : (members : List (String × Value)) → sameMembers members members = true
  | [] => rfl
  | (_, a) :: as => by simp [sameMembers, same_refl a, sameMembers_refl as]

end

end Value

end DataGrid
