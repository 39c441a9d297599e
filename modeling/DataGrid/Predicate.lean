import DataGrid.Accessor.Basic
import DataGrid.Comparison

/-!
# Predicates

A `Predicate` is a compiled filter: each comparison carries its accessor and the strategy by which
it compares.

* `Predicate.evaluate` decides a record. Conjunctions and disjunctions stop at the first part that
  decides them, so a later part that fails is not reached.
* `Predicate.negate` turns constants and takes double negations away.
-/

namespace DataGrid

/-- The way in which a comparison compares. -/
inductive Strategy where
  /-- the order and equality of values -/
  | native
  /-- the equality of values, for types without an equality of their own -/
  | equals
  /-- an equality operator -/
  | equalityOperator (eq : Value → Value → Bool)
  /-- the integers behind an enumeration -/
  | underlying
  /-- a relational operator -/
  | operator (cmp : Value → Value → Ordering)
  /-- a three-way comparison of values that are not null -/
  | compareTo (cmp : Value → Value → Ordering)
  /-- a three-way comparison that places nulls as well -/
  | staticCompare (cmp : Value → Value → Ordering)
  /-- a comparison by the kind of the value that is read -/
  | untyped (foldCase : Bool)

/-- A compiled filter. -/
inductive Predicate where
  /-- holds always or never -/
  | constant (b : Bool)
  /-- holds where a part does not -/
  | negation (inner : Predicate)
  /-- holds where all parts do -/
  | all (parts : List Predicate)
  /-- holds where some part does -/
  | any (parts : List Predicate)
  /-- tests a text -/
  | text (accessor : Accessor) (op : TextTest) (needle : String)
  /-- compares with a literal -/
  | compare (accessor : Accessor) (op : Comparator) (literal : Value) (strategy : Strategy)
  /-- tests the record in a way of its own -/
  | custom (description : String) (test : Value → Except ReadError Bool)

namespace Predicate

/-- Holds for every record. -/
def always : Predicate := constant true

/-- Holds where a predicate does not. -/
def negate : Predicate → Predicate
  | constant b => constant (!b)
  | negation inner => inner
  | other => negation other

/-- The value of a constant. -/
def constant? : Predicate → Option Bool
  | constant b => some b
  | _ => none

/-- The outcome of a test of equality as one of a three-way comparison. -/
def asOutcome (equal : Bool) : Ordering := if equal then .eq else .lt

/-- The comparison behind the operators of values. -/
def nativeOutcome (op : Comparator) (a b : Value) : Option Ordering :=
  if op.isEquality then some (asOutcome (Value.equal a b)) else Value.compare? a b

/-- Compares a value that was read with a literal. -/
def satisfies (accessor : Accessor) (op : Comparator) (actual literal : Value) :
    Strategy → Except ReadError Bool
  | .native | .underlying => .ok (nullAware (nativeOutcome op) op actual literal)
  | .equals =>
    .ok (if op = .ne then !Value.equal actual literal else Value.equal actual literal)
  | .equalityOperator eq => .ok (nullAware (fun a b => some (asOutcome (eq a b))) op actual literal)
  | .operator cmp => .ok (nullAware (fun a b => some (cmp a b)) op actual literal)
  | .compareTo cmp =>
    if actual.isNull then
      if accessor.guardsNulls then .ok false else .error (.nullReference accessor.path)
    else .ok (op.admits (cmp actual literal))
  | .staticCompare cmp => .ok (op.admits (cmp actual literal))
  | .untyped foldCase => .ok (op.admits (untypedOrder foldCase actual literal))

/-- Tests the text of a value that was read. -/
def testText (accessor : Accessor) (op : TextTest) (needle : String) (actual : Value) :
    Except ReadError Bool :=
  if actual.isNull && !accessor.guardsNulls then .error (.nullReference accessor.path)
  else .ok (op.holds actual.text needle)

mutual

/-- Decides a record. -/
def evaluate (record : Value) : Predicate → Except ReadError Bool
  | constant b => .ok b
  | negation inner => (evaluate record inner).map (!·)
  | all parts => evaluateAll record parts
  | any parts => evaluateAny record parts
  | text accessor op needle => (accessor.read record).bind (testText accessor op needle)
  | compare accessor op literal strategy =>
    (accessor.read record).bind fun actual => satisfies accessor op actual literal strategy
  | custom _ test => test record

/-- Whether all parts hold, up to the first that does not. -/
def evaluateAll (record : Value) : List Predicate → Except ReadError Bool
  | [] => .ok true
  | part :: rest =>
    match evaluate record part with
    | .ok true => evaluateAll record rest
    | .ok false => .ok false
    | .error e => .error e

/-- Whether some part holds, up to the first that does. -/
def evaluateAny (record : Value) : List Predicate → Except ReadError Bool
  | [] => .ok false
  | part :: rest =>
    match evaluate record part with
    | .ok true => .ok true
    | .ok false => evaluateAny record rest
    | .error e => .error e

end

mutual

/-- The predicate in words. -/
def describe : Predicate → String
  | constant b => Value.boolText b
  | negation inner => "!" ++ inner.describe
  | all parts => "(" ++ String.intercalate " and " (describeAll parts) ++ ")"
  | any parts => "(" ++ String.intercalate " or " (describeAll parts) ++ ")"
  | text accessor op needle => accessor.path ++ " " ++ op.token ++ " \"" ++ needle ++ "\""
  | compare accessor op literal _ => accessor.path ++ " " ++ op.token ++ " " ++ literal.shown
  | custom description _ => description

/-- Predicates in words. -/
def describeAll : List Predicate → List String
  | [] => []
  | part :: rest => part.describe :: describeAll rest

end

/-! ## Negation -/

/-- Negation turns what a predicate decides, and fails where it fails. -/
theorem evaluate_negate (record : Value) (p : Predicate) :
    evaluate record p.negate = (evaluate record p).map (!·) := by
  cases p with
  | negation inner =>
    simp only [negate, evaluate]
    cases evaluate record inner <;> simp [Except.map]
  | _ => simp [negate, evaluate, Except.map]

end Predicate

end DataGrid
