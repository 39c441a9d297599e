import DataGrid.Conversion

/-!
# Comparisons

* `Comparator` holds the six operators; `Comparator.admits` says which outcomes of a three-way
  comparison satisfy each.
* `TextTest` holds the tests of texts.
* `nullAware` extends an operator to nulls: two nulls are equal, a null differs from every value,
  and no order holds against a null.
* `untypedOrder` compares a value of a kind known only now with a literal.
-/

namespace DataGrid

/-- A comparison operator. -/
inductive Comparator where
  /-- equal -/
  | eq
  /-- not equal -/
  | ne
  /-- less -/
  | lt
  /-- less or equal -/
  | le
  /-- greater -/
  | gt
  /-- greater or equal -/
  | ge
  deriving DecidableEq

namespace Comparator

/-- The operator of a token. -/
def ofToken? : String → Option Comparator
  | "=" => some eq
  | "<>" => some ne
  | "<" => some lt
  | "<=" => some le
  | ">" => some gt
  | ">=" => some ge
  | _ => none

/-- The token of an operator. -/
def token : Comparator → String
  | eq => "="
  | ne => "<>"
  | lt => "<"
  | le => "<="
  | gt => ">"
  | ge => ">="

/-- Whether the operator only tells values equal or different. -/
def isEquality : Comparator → Bool
  | eq | ne => true
  | _ => false

/-- Whether an outcome of a three-way comparison satisfies the operator. -/
def admits : Comparator → Ordering → Bool
  | eq, o => o == .eq
  | ne, o => o != .eq
  | lt, o => o == .lt
  | le, o => o != .gt
  | gt, o => o == .gt
  | ge, o => o != .lt

theorem ofToken?_token (op : Comparator) : ofToken? op.token = some op := by cases op <;> rfl

end Comparator

/-- A test of texts. -/
inductive TextTest where
  /-- the needle stands somewhere in the text -/
  | contains
  /-- the text starts with the needle -/
  | startsWith
  /-- the text ends with the needle -/
  | endsWith
  deriving DecidableEq

namespace TextTest

/-- The name of a test. -/
def token : TextTest → String
  | contains => "contains"
  | startsWith => "startswith"
  | endsWith => "endswith"

/-- Whether a needle stands somewhere in a text. -/
def occursIn (needle : List Char) : List Char → Bool
  | [] => needle.isEmpty
  | c :: rest => needle.isPrefixOf (c :: rest) || occursIn needle rest

/-- Whether a text passes the test. -/
def holds (op : TextTest) (text needle : String) : Bool :=
  match op with
  | contains => occursIn needle.toList text.toList
  | startsWith => needle.toList.isPrefixOf text.toList
  | endsWith => needle.toList.isSuffixOf text.toList

/-- Occurrence is the order of infixes. -/
theorem occursIn_iff {needle text : List Char} :
    occursIn needle text = true ↔ needle <:+: text := by
  induction text with
  | nil => simp [occursIn, List.isEmpty_iff]
  | cons c rest ih =>
    simp [occursIn, ih, List.isPrefixOf_iff_prefix, List.infix_cons_iff]

end TextTest

/-- An operator extended to nulls. The comparison places two values that are not null, or does not
place them. -/
def nullAware (cmp : Value → Value → Option Ordering) (op : Comparator)
    (actual literal : Value) : Bool :=
  match actual.isNull, literal.isNull with
  | true, true => op == .eq
  | true, false | false, true => op == .ne
  | false, false =>
    match cmp actual literal with
    | some o => op.admits o
    | none => op == .ne

/-- The type that a value has when it is read. -/
def knownType? : Value → Option FieldType
  | .bool _ => some .bool
  | .int _ => some .int64
  | .float _ => some .float64
  | .dateTime _ => some .dateTime
  | .span _ => some .span
  | .uuid _ => some .uuid
  | _ => none

/-- The natural order of a value and a literal, as it is or converted to the type of the value. -/
def convertedOrder? (actual literal : Value) : Option Ordering :=
  match Value.compare? actual literal with
  | some o => some o
  | none =>
    match knownType? actual with
    | none => none
    | some t =>
      match t.convert literal with
      | .ok v => Value.compare? actual v
      | .error _ => none

/-- The order of two texts, with or without folded case. -/
def textOrder (foldCase : Bool) (a b : String) : Ordering :=
  if foldCase then compare (Text.lowerCase a) (Text.lowerCase b) else compare a b

/-- The order of a value of any kind and a literal: nulls come first, then the natural order counts,
then that after conversion, then that of the texts. -/
def untypedOrder (foldCase : Bool) (actual literal : Value) : Ordering :=
  match actual, literal with
  | .null, .null => .eq
  | .null, _ => .lt
  | _, .null => .gt
  | .string a, .string b => textOrder foldCase a b
  | _, _ =>
    match convertedOrder? actual literal with
    | some o => o
    | none => textOrder foldCase actual.text literal.text

end DataGrid
