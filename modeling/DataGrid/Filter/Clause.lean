import DataGrid.Predicate
import DataGrid.Settings

/-!
# Binary clauses

`Clause.compile` makes a predicate of an accessor, an operator and a literal.

* `contains`, `notcontains`, `startswith` and `endswith` test the text of a member.
* The six comparisons compare a member with the literal, converted to the type of the member. A
  literal that has no counterpart there makes a clause that never holds.
* `Clause.prepare` appends to the accessor what the operator and the settings ask for.
-/

namespace DataGrid.Clause

/-- The test that an operator stands for, and whether it is turned. -/
def textTest? : String → Option (TextTest × Bool)
  | "contains" => some (.contains, false)
  | "notcontains" => some (.contains, true)
  | "startswith" => some (.startsWith, false)
  | "endswith" => some (.endsWith, false)
  | _ => none

/-- Makes text of the member for a test of texts, and folds the case of texts if asked to. -/
def prepare (s : Settings) (operation : String) (a : Accessor) : Accessor :=
  let a := if (textTest? operation).isSome then a.forceText else a
  if s.stringToLower && a.type.isText then a.addLower else a

/-- Folds the case of a text if asked to. -/
def fold (s : Settings) (text : String) : String :=
  if s.stringToLower then Text.lowerCase text else text

/-- Folds the case of a literal that is a text if asked to. -/
def foldLiteral (s : Settings) : Value → Value
  | .string text => .string (fold s text)
  | v => v

/-- How a comparison of a type and a literal compares; no strategy if it never holds. -/
def strategy? (s : Settings) (a : Accessor) (op : Comparator) (literal : Value) :
    Except CompileError (Option Strategy) :=
  let lacks (c : Capability) := Except.error (.notComparable a.path a.type.name c)
  if op.isEquality then
    match a.type.equality with
    | .native =>
      match a.type with
      | .enum _ => .ok (some .underlying)
      | _ => .ok (some .native)
    | .operator eq => .ok (some (.equalityOperator eq))
    | .none => if s.supportsEquals then .ok (some .equals) else lacks .equality
  else
    match a.type.ordering with
    | .native => .ok (some .native)
    | .underlying => .ok (some .underlying)
    | .operator cmp => .ok (some (.operator cmp))
    | .compareTo cmp => if literal.isNull then .ok none else .ok (some (.compareTo cmp))
    | .staticCompare cmp => .ok (some (.staticCompare cmp))
    | .none => lacks .ordering

/-- The comparison of a member of a known type with a literal of that type. -/
def compareTyped (s : Settings) (a : Accessor) (op : Comparator) (literal : Value) :
    Except CompileError Predicate :=
  if literal.isNull && !a.nullable && !op.isEquality then .ok (.constant false)
  else
    let literal := foldLiteral s literal
    match strategy? s a op literal with
    | .ok (some strategy) => .ok (.compare a op literal strategy)
    | .ok none => .ok (.constant false)
    | .error e => .error e

/-- The predicate of a clause whose accessor is prepared and whose operator is in lower case. -/
def ofPrepared (s : Settings) (a : Accessor) (operation : String) (value : Value) :
    Except CompileError Predicate :=
  match textTest? operation with
  | some (op, turned) =>
    let test := Predicate.text a op (fold s value.text)
    .ok (if turned then test.negate else test)
  | none =>
    match Comparator.ofToken? operation with
    | none => .error (.unsupportedOperator operation)
    | some op =>
      if a.type.isDynamic then .ok (.compare a op value (.untyped s.stringToLower))
      else
        match a.type.convert value with
        | .ok literal => compareTyped s a op literal
        | .error _ => .ok (.constant false)

/-- The predicate of a clause with a resolved accessor; the operator may have any letter case. -/
def compile (s : Settings) (a : Accessor) (operation : String) (value : Value) :
    Except CompileError Predicate :=
  let operation := Text.lowerCase operation
  ofPrepared s (prepare s operation a) operation value

end DataGrid.Clause
