import DataGrid.Json.Basic
import DataGrid.Value.Json

/-!
# Trees of groups

A `Group` has a key and what stands under it: groups, rows, or nothing once its rows are dropped.

* `Group.ofRows` and `Group.ofGroups` count what stands under the group.
* `Subtree.countRows` is the number of rows in a tree.
-/

namespace DataGrid

mutual

/-- A node of a tree of groups. -/
inductive Group (α : Type) where
  /-- a node has a key, what stands under it, and perhaps a count and a summary -/
  | mk (key : Value) (items : Subtree α) (count : Option Nat) (summary : Option (List Value))

/-- What stands under a node. -/
inductive Subtree (α : Type) where
  /-- groups -/
  | groups (gs : List (Group α))
  /-- rows, under an innermost group -/
  | rows (rs : List α)
  /-- nothing, after the rows were dropped -/
  | dropped

end

namespace Group

variable {α β : Type}

/-- The key of a group. -/
def key : Group α → Value
  | mk k _ _ _ => k

/-- What stands under a group. -/
def items : Group α → Subtree α
  | mk _ i _ _ => i

/-- The count of a group. -/
def count : Group α → Option Nat
  | mk _ _ c _ => c

/-- The summary of a group. -/
def summary : Group α → Option (List Value)
  | mk _ _ _ s => s

/-- The group of a key and rows, with their number. -/
def ofRows (key : Value) (rows : List α) : Group α := mk key (.rows rows) (some rows.length) none

/-- The group of a key and groups, with their number. -/
def ofGroups (key : Value) (groups : List (Group α)) : Group α :=
  mk key (.groups groups) (some groups.length) none

end Group

namespace Subtree

variable {α β : Type}

mutual

/-- The number of rows in a tree. -/
def countRows : Subtree α → Nat
  | groups gs => sumLeafRows gs
  | rows rs => rs.length
  | dropped => 0

/-- The number of rows under groups. -/
def sumLeafRows : List (Group α) → Nat
  | [] => 0
  | .mk _ items _ _ :: rest => items.countRows + sumLeafRows rest

end

mutual

/-- The tree with its rows converted. -/
def map (f : α → β) : Subtree α → Subtree β
  | groups gs => groups (mapGroups f gs)
  | rows rs => rows (rs.map f)
  | dropped => dropped

/-- Groups with their rows converted. -/
def mapGroups (f : α → β) : List (Group α) → List (Group β)
  | [] => []
  | .mk k items c s :: rest => .mk k (map f items) c s :: mapGroups f rest

end

mutual

/-- The rows of a tree, left to right. -/
def leafRows : Subtree α → List α
  | groups gs => leafRowsOf gs
  | rows rs => rs
  | dropped => []

/-- The rows under groups, left to right. -/
def leafRowsOf : List (Group α) → List α
  | [] => []
  | .mk _ items _ _ :: rest => leafRows items ++ leafRowsOf rest

end

mutual

/-- What stands under a group, without the rows of innermost groups. -/
def dropRows : Subtree α → Subtree α
  | .groups gs => .groups (dropRowsOf gs)
  | .rows _ => .dropped
  | .dropped => .dropped

/-- Groups without the rows of innermost groups, which keep their counts. -/
def dropRowsOf : List (Group α) → List (Group α)
  | [] => []
  | .mk key items count summary :: rest =>
    .mk key (dropRows items) count summary :: dropRowsOf rest

end

mutual

/-- The JSON tree of what stands under a group. -/
def toJson (f : α → Json) : Subtree α → Json
  | groups gs => .array (groupsToJson f gs)
  | rows rs => .array (rs.map f)
  | dropped => .null

/-- The JSON trees of groups: the key, what stands under the group, and the count and the summary if
it has them. -/
def groupsToJson (f : α → Json) : List (Group α) → List Json
  | [] => []
  | .mk key items count summary :: rest =>
    let counted := match count with
      | some n => [("count", Json.int n)]
      | none => []
    let summed := match summary with
      | some values => [("summary", Json.array (Value.itemsToJson values))]
      | none => []
    .object ([("key", key.toJson), ("items", toJson f items)] ++ counted ++ summed)
      :: groupsToJson f rest

end

/-! ## Small facts -/

mutual

/-- The number of rows is the length of their list. -/
theorem countRows_eq_length : (items : Subtree α) →
    items.countRows = (leafRows items).length
  | groups gs => by rw [countRows, leafRows, sumLeafRows_eq_length gs]
  | rows _ => rfl
  | dropped => rfl

theorem sumLeafRows_eq_length : (gs : List (Group α)) →
    sumLeafRows gs = (leafRowsOf gs).length
  | [] => rfl
  | .mk _ items _ _ :: rest => by
    rw [sumLeafRows, leafRowsOf, List.length_append, countRows_eq_length items,
      sumLeafRows_eq_length rest]

end

end Subtree

end DataGrid
