import DataGrid.Error
import DataGrid.Value.Json

/-!
# Criteria

A `Criteria` is a filter as a client writes it. It travels as nested JSON arrays:

* `["age", ">", 30]` compares, and `["name", "Ada"]` leaves the operator out;
* `["!", ["age", ">", 30]]` negates;
* `[["age", ">", 30], "and", ["name", "Ada"]]` groups clauses and connectors.

`Criteria.ofJson` reads this form. It checks the structure only: names, operators and connectors are
checked against a shape later. `Criteria.toJson` writes it.
-/

namespace DataGrid

mutual

/-- A filter as it is written. -/
inductive Criteria where
  /-- compares a member with a literal; the operator may be left out -/
  | binary (accessor : String) (operation : Option String) (value : Value)
  /-- holds where another filter does not -/
  | negation (inner : Criteria)
  /-- clauses and the connectors around them -/
  | group (items : List CriteriaItem)

/-- What stands in a group. -/
inductive CriteriaItem where
  /-- a filter -/
  | clause (c : Criteria)
  /-- a word that joins clauses -/
  | connector (token : String)

end

namespace Criteria

/-- The mark of a negation. -/
def negationMark : String := "!"

/-- The text of a name or an operator; what is no string stands for its JSON text. -/
def wordOf : Json → String
  | .string s => s
  | j => j.render

/-- Reads a binary clause: the first element, the second if there are more than two, and the
last. -/
def binaryOf (items : List Json) : Except CompileError Criteria :=
  match items with
  | [accessor, value] => .ok (.binary (wordOf accessor) none (.ofJson value))
  | accessor :: operation :: value :: rest =>
    .ok (.binary (wordOf accessor) (some (wordOf operation))
      (.ofJson ((value :: rest).getLast (List.cons_ne_nil _ _))))
  | _ => .error (.malformedCriteria (.tooShort items.length))

mutual

/-- Reads a filter. -/
def ofJson : Json → Except CompileError Criteria
  | .array items =>
    match items with
    | [] => .error (.malformedCriteria .emptyArray)
    | .array _ :: _ => (ofItems items).map .group
    | .string s :: _ =>
      if s = negationMark then (ofOperand items).map .negation else binaryOf items
    | _ => binaryOf items
  | other => .error (.malformedCriteria (.noArray other))

/-- Reads the items of a group. -/
def ofItems : List Json → Except CompileError (List CriteriaItem)
  | [] => .ok []
  | item :: rest =>
    match item with
    | .string token => (ofItems rest).map (.connector token :: ·)
    | .array _ =>
      match ofJson item with
      | .ok c => (ofItems rest).map (.clause c :: ·)
      | .error e => .error e
    | other => .error (.malformedCriteria (.strayMember other))

/-- Reads the second element as the operand of a negation. -/
def ofOperand : List Json → Except CompileError Criteria
  | _ :: operand :: _ => ofJson operand
  | _ => .error (.malformedCriteria .noOperand)

end

mutual

/-- Writes a filter. -/
def toJson : Criteria → Json
  | binary accessor none value => .array [.string accessor, value.toJson]
  | binary accessor (some operation) value =>
    .array [.string accessor, .string operation, value.toJson]
  | negation inner => .array [.string negationMark, inner.toJson]
  | group items => .array (itemsToJson items)

/-- Writes the items of a group. -/
def itemsToJson : List CriteriaItem → List Json
  | [] => []
  | .clause c :: rest => c.toJson :: itemsToJson rest
  | .connector token :: rest => .string token :: itemsToJson rest

end

end Criteria

end DataGrid
