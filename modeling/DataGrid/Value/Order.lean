import DataGrid.Value.Basic

/-!
# The orders of values

* `Value.compare?` is the natural order within a kind; integers and doubles compare as numbers. It
  places neither nulls nor NaN, and no arrays or objects.
* `Value.equal` is the equality of filters: two nulls are equal, and no null equals anything else.
* `Value.order` places all values: nulls first, then by the rank of the kind, then naturally, and
  what the natural order does not place is level.
-/

namespace DataGrid.Value

/-- The natural order of two values of one kind, or of two numbers. -/
def compare? : Value → Value → Option Ordering
  | bool a, bool b => some (compare a.toNat b.toNat)
  | int a, int b => some (compare a.toInt b.toInt)
  | int a, float y => (Binary64.ofInt a.toInt).compare? y
  | float x, int b => x.compare? (Binary64.ofInt b.toInt)
  | float x, float y => x.compare? y
  | string a, string b => some (compare a b)
  | dateTime a, dateTime b => some (a.order b)
  | span a, span b => some (a.order b)
  | uuid a, uuid b => some (a.order b)
  | _, _ => none

/-- The equality of filters. -/
def equal : Value → Value → Bool
  | null, null => true
  | null, _ => false
  | _, null => false
  | a, b =>
    match compare? a b with
    | some o => o == .eq
    | none => a.same b

/-- The place of a kind among the kinds. -/
def rank : Value → Nat
  | null => 0
  | bool _ => 1
  | int _ | float _ => 2
  | span _ => 3
  | dateTime _ => 4
  | string _ => 5
  | uuid _ => 6
  | array _ => 7
  | object _ => 8

/-- The order of all values. -/
def order (a b : Value) : Ordering :=
  if a.rank = b.rank then (compare? a b).getD .eq else compare a.rank b.rank

end DataGrid.Value
