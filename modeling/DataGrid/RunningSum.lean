import DataGrid.Error
import DataGrid.Shape

/-!
# Running sums

* A `RunningSum` is a sum whose kind is that of the first value: integers are summed exactly, an
  integer sum becomes a double at the first double, and spans are summed within their range.
* A `TypedSum` is a running sum of a known type, from the zero of that type, or a `RunningSum`
  for dynamic members.
* `TypedSum.sumOfNone` is the sum of no values of a type.
-/

namespace DataGrid

/-- The error of a value of another kind. -/
def wrongKind (expected : String) (found : Value) : ReadError :=
  .typeMismatch expected found.kind

namespace Sum

/-- The value of an exact sum: an integer if a word holds it, and a double otherwise. -/
def ofInt (sum : Int) : Value :=
  match Integer.narrow? sum with
  | some i => .int i
  | none => .float (Binary64.ofInt sum)

/-- The quotient of an exact sum and a count; null if the count is zero. -/
def averageOfInt (sum : Int) (count : Nat) : Value :=
  if count = 0 then .null
  else .float ((Binary64.ofInt sum).div (Binary64.ofInt count))

/-- The quotient of a sum of doubles and a count; null if the count is zero. -/
def averageOfFloat (sum : Binary64) (count : Nat) : Value :=
  if count = 0 then .null else .float (sum.div (Binary64.ofInt count))

/-- The greatest count that shares out a span. -/
def greatestCount : Nat := Integer.greatest.toNat

/-- The share of a sum of spans; null if the count is zero. -/
def averageOfSpan (sum : Span) (count : Nat) : Value :=
  if count = 0 then .null else .span (sum.divide (min count greatestCount))

/-- The sum of two spans, or that it leaves their range. -/
def addSpans (a b : Span) : Except ReadError Span :=
  match a.add? b with
  | some sum => .ok sum
  | none => .error .spanOverflow

end Sum

/-- A sum of the kind of the first value. -/
inductive RunningSum where
  /-- no value yet -/
  | empty
  /-- an exact sum of integers -/
  | int (sum : Int)
  /-- a sum of doubles -/
  | float (sum : Binary64)
  /-- a sum of spans -/
  | span (sum : Span)
  deriving DecidableEq

namespace RunningSum

/-- The sum with one more value that is not null. -/
def add : RunningSum → Value → Except ReadError RunningSum
  | empty, .int i => .ok (int i.toInt)
  | empty, .float x => .ok (float x)
  | empty, .span a => .ok (span a)
  | int sum, .int i => .ok (int (sum + i.toInt))
  | int sum, .float x => .ok (float ((Binary64.ofInt sum).add x))
  | float sum, .int i => .ok (float (sum.add (Binary64.ofInt i.toInt)))
  | float sum, .float x => .ok (float (sum.add x))
  | span sum, .span a => (Sum.addSpans sum a).map span
  | _, other => .error (wrongKind "number" other)

/-- The value of the sum. -/
def value : RunningSum → Value
  | empty => .int 0
  | int sum => Sum.ofInt sum
  | float sum => .float sum
  | span sum => .span sum

/-- The sum over a count; null if there is no value or the count is zero. -/
def divide : RunningSum → Nat → Value
  | empty, _ => .null
  | int sum, count => Sum.averageOfInt sum count
  | float sum, count => Sum.averageOfFloat sum count
  | span sum, count => Sum.averageOfSpan sum count

end RunningSum

/-- A running sum of the values of a type. -/
inductive TypedSum where
  /-- of integers -/
  | int (sum : Int)
  /-- of doubles -/
  | float (sum : Binary64)
  /-- of spans -/
  | span (sum : Span)
  /-- of the values of a dynamic member -/
  | untyped (sum : RunningSum)
  deriving DecidableEq

namespace TypedSum

/-- The sum of no values of a type; none if the type has no sums. -/
def zero? : FieldType → Option TypedSum
  | .int32 | .int64 => some (int 0)
  | .float32 | .float64 => some (float (Binary64.zero false))
  | .span => some (span Span.zero)
  | .dynamic => some (untyped .empty)
  | _ => none

/-- The sum with one more value that is not null. -/
def add : TypedSum → Value → Except ReadError TypedSum
  | int sum, .int i => .ok (int (sum + i.toInt))
  | int _, other => .error (wrongKind "int" other)
  | float sum, v =>
    match v.asFloat? with
    | some x => .ok (float (sum.add x))
    | none => .error (wrongKind "float" v)
  | span sum, .span a => (Sum.addSpans sum a).map span
  | span _, other => .error (wrongKind "duration" other)
  | untyped sum, v => (sum.add v).map untyped

/-- The value of the sum. -/
def value : TypedSum → Value
  | int sum => Sum.ofInt sum
  | float sum => .float sum
  | span sum => .span sum
  | untyped sum => sum.value

/-- The sum over a count; null if the count is zero. -/
def divide : TypedSum → Nat → Value
  | int sum, count => Sum.averageOfInt sum count
  | float sum, count => Sum.averageOfFloat sum count
  | span sum, count => Sum.averageOfSpan sum count
  | untyped sum, count => sum.divide count

/-- The sum of no values of a type, an integer zero for types without sums. -/
def sumOfNone (t : FieldType) : Value :=
  match zero? t with
  | some a => a.value
  | none => .int 0

end TypedSum

end DataGrid
