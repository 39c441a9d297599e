import DataGrid.Group
import DataGrid.Value.Json

/-!
# Answers to requests

A `LoadAnswer` holds a page of records or of groups, and the numbers and totals that were asked for.
`LoadAnswer.toJson` writes it.
-/

namespace DataGrid

/-- Records, or the groups of the outermost level. -/
inductive Page where
  /-- records -/
  | records (rs : List Value)
  /-- groups -/
  | groups (gs : List (Group Value))

namespace Page

/-- The number of records or of outermost groups. -/
def size : Page → Nat
  | records rs => rs.length
  | groups gs => gs.length

/-- Writes records or groups. -/
def toJson : Page → Json
  | records rs => .array (Value.itemsToJson rs)
  | groups gs => .array (Subtree.groupsToJson Value.toJson gs)

end Page

/-- The answer to a request. A number that was not asked for is -1. -/
structure LoadAnswer where
  /-- the page of records or groups -/
  data : Page
  /-- the number of matching records -/
  totalCount : Int
  /-- the totals, if any were asked for -/
  summary : Option (List Value)
  /-- the number of outermost groups -/
  groupCount : Int

namespace LoadAnswer

/-- An answer with nothing but data. -/
def ofData (data : Page) : LoadAnswer := ⟨data, -1, none, -1⟩

/-- Writes an answer. -/
def toJson (r : LoadAnswer) : Json :=
  let summary := match r.summary with
    | some values => [("summary", Json.array (Value.itemsToJson values))]
    | none => []
  .object ([("data", r.data.toJson), ("totalCount", .int r.totalCount)] ++ summary
    ++ [("groupCount", .int r.groupCount)])

end LoadAnswer

end DataGrid
