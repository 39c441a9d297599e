import DataGrid.Projection.Regroup
import DataGrid.Loader.Request

/-!
# The JSON forms of requests and answers

A record is read from an object or from an array with its members in order.

* `Wire.members?` finds the members of a record: under any of their names in an object, where two
  names of one member exclude each other, or by position in an array, which may be shorter but not
  longer than the record. Unknown names are passed over.
* A member that is absent takes its default, if it has one. A null stands for an optional member
  only.
-/

namespace DataGrid

namespace Wire

/-- The value of a member in an object, under the only one of its names that is there. -/
def memberOf? (members : List (String × Json)) (names : List String) : Option (Option Json) :=
  match names.filterMap fun name => List.lookup name members with
  | [] => some none
  | [value] => some (some value)
  | _ => none

/-- The members of a record by their names. -/
def members? (names : List (List String)) : Json → Option (List (Option Json))
  | .object members => names.mapM (memberOf? members)
  | .array items =>
    if items.length ≤ names.length then
      some (items.map some ++ List.replicate (names.length - items.length) none)
    else none
  | _ => none

/-- Reads a truth value. -/
def bool? : Json → Option Bool
  | .bool b => some b
  | _ => none

/-- Reads a string. -/
def string? : Json → Option String
  | .string s => some s
  | _ => none

/-- Reads an unsigned integer. -/
def natural? : Json → Option Nat
  | .int n => if 0 ≤ n then some n.toNat else none
  | _ => none

/-- Reads the items of an array. -/
def list? {α : Type} (read : Json → Option α) : Json → Option (List α)
  | .array items => items.mapM read
  | _ => none

/-- Reads a member that may be null. -/
def optional? {α : Type} (read : Json → Option α) : Json → Option (Option α)
  | .null => some none
  | j => (read j).map some

/-- Reads a member, or gives its default if it is absent. -/
def orDefault? {α : Type} (default : α) (read : Json → Option α) : Option Json → Option α
  | none => some default
  | some j => read j

/-- Reads a member that has no default. -/
def required? {α : Type} (read : Json → Option α) : Option Json → Option α
  | none => none
  | some j => read j

/-- A truth value or null. -/
def ofBool? : Option Bool → Json
  | some b => .bool b
  | none => .null

/-- An integer or null. -/
def ofNatural? : Option Nat → Json
  | some n => .int n
  | none => .null

end Wire

open Wire

namespace Settings

/-- Reads settings. -/
def ofJson? (j : Json) : Option Settings := do
  match ← members? [["guardNulls"], ["stringToLower"], ["supportsEqualsMethod"]] j with
  | [guard, lower, equals] =>
    return ⟨← orDefault? standard.guardNulls bool? guard,
      ← orDefault? standard.stringToLower bool? lower,
      ← orDefault? standard.supportsEquals bool? equals⟩
  | _ => none

/-- Writes settings. -/
def toJson (s : Settings) : Json :=
  .object [("guardNulls", .bool s.guardNulls), ("stringToLower", .bool s.stringToLower),
    ("supportsEqualsMethod", .bool s.supportsEquals)]

end Settings

namespace Summary

/-- Reads the name of a kind. -/
def kindOfJson? (j : Json) : Option SummaryKind := (string? j).bind SummaryKind.ofName?

/-- Reads a summary. -/
def ofJson? (j : Json) : Option Summary := do
  match ← members? [["selector"], ["summaryType", "type"]] j with
  | [selector, kind] =>
    return ⟨← orDefault? none (optional? string?) selector, ← required? kindOfJson? kind⟩
  | _ => none

/-- Writes a summary. -/
def toJson (s : Summary) : Json :=
  let selector := match s.selector with
    | some path => [("selector", Json.string path)]
    | none => []
  .object (selector ++ [("summaryType", .string s.kind.name)])

end Summary

namespace Grouping

/-- Reads a level of grouping. -/
def ofJson? (j : Json) : Option Grouping := do
  match ← members? [["selector"], ["desc"], ["isExpanded"]] j with
  | [selector, desc, expanded] =>
    return ⟨← required? string? selector, ← orDefault? false bool? desc,
      ← orDefault? none (optional? bool?) expanded⟩
  | _ => none

/-- Writes a level of grouping. -/
def toJson (g : Grouping) : Json :=
  let expanded := match g.isExpanded with
    | some b => [("isExpanded", Json.bool b)]
    | none => []
  .object ([("selector", Json.string g.selector), ("desc", .bool g.desc)] ++ expanded)

end Grouping

namespace Sorting

/-- Reads a level of sorting. -/
def ofJson? (j : Json) : Option Sorting := do
  match ← members? [["selector"], ["desc"]] j with
  | [selector, desc] => return ⟨← required? string? selector, ← orDefault? false bool? desc⟩
  | _ => none

/-- Writes a level of sorting. -/
def toJson (s : Sorting) : Json :=
  .object [("selector", .string s.selector), ("desc", .bool s.desc)]

end Sorting

namespace LoadRequest

/-- The names of the members in their order. -/
def memberNames : List (List String) :=
  [["skip"], ["take"], ["requireTotalCount"], ["requireGroupCount"], ["isCountQuery"], ["filter"],
    ["sort"], ["group"], ["totalSummary"], ["groupSummary"], ["remoteGrouping"], ["stringToLower"]]

/-- Reads a request. -/
def ofJson? (j : Json) : Option LoadRequest := do
  match ← members? memberNames j with
  | [skip, take, totalCount, groupCount, countQuery, filter, sort, group, totalSummary,
      groupSummary, remote, lower] =>
    return {
      skip := ← orDefault? 0 natural? skip
      take := ← orDefault? none (optional? natural?) take
      requireTotalCount := ← orDefault? false bool? totalCount
      requireGroupCount := ← orDefault? false bool? groupCount
      isCountQuery := ← orDefault? false bool? countQuery
      filter := ← orDefault? none (optional? some) filter
      sort := ← orDefault? [] (list? Sorting.ofJson?) sort
      group := ← orDefault? [] (list? Grouping.ofJson?) group
      totalSummary := ← orDefault? [] (list? Summary.ofJson?) totalSummary
      groupSummary := ← orDefault? [] (list? Summary.ofJson?) groupSummary
      remoteGrouping := ← orDefault? none (optional? bool?) remote
      stringToLower := ← orDefault? none (optional? bool?) lower }
  | _ => none

/-- Writes a request. -/
def toJson (o : LoadRequest) : Json :=
  .object [("skip", .int o.skip), ("take", ofNatural? o.take),
    ("requireTotalCount", .bool o.requireTotalCount),
    ("requireGroupCount", .bool o.requireGroupCount), ("isCountQuery", .bool o.isCountQuery),
    ("filter", o.filter.getD .null), ("sort", .array (o.sort.map Sorting.toJson)),
    ("group", .array (o.group.map Grouping.toJson)),
    ("totalSummary", .array (o.totalSummary.map Summary.toJson)),
    ("groupSummary", .array (o.groupSummary.map Summary.toJson)),
    ("remoteGrouping", ofBool? o.remoteGrouping), ("stringToLower", ofBool? o.stringToLower)]

end LoadRequest

namespace LoaderSettings

/-- Reads the settings of a loader. -/
def ofJson? (j : Json) : Option LoaderSettings := do
  match ← members? [["engine"], ["remoteGrouping"], ["maxTake"]] j with
  | [engine, remote, maxTake] =>
    return ⟨← orDefault? .standard Settings.ofJson? engine,
      ← orDefault? none (optional? bool?) remote,
      ← orDefault? none (optional? natural?) maxTake⟩
  | _ => none

/-- Writes the settings of a loader. -/
def toJson (c : LoaderSettings) : Json :=
  .object [("engine", c.engine.toJson), ("remoteGrouping", ofBool? c.remoteGrouping),
    ("maxTake", ofNatural? c.maxTake)]

end LoaderSettings

namespace Row

/-- Reads a flat row. -/
def ofJson? (j : Json) : Option Row := (list? (some <| Value.ofJson ·) j).map Row.mk

/-- Writes a flat row. -/
def toJson (r : Row) : Json := .array (Value.itemsToJson r.values)

end Row

namespace Column

/-- Writes a column. -/
def toJson : Column → Json
  | record => .object [("op", .string "record")]
  | key level => .object [("op", .string "key"), ("level", .int level)]
  | sum selector => ofSelector "sum" selector
  | min selector => ofSelector "min" selector
  | max selector => ofSelector "max" selector
  | avgSum selector => ofSelector "avgSum" selector
  | avgCount selector => ofSelector "avgCount" selector
  | rowCount => .object [("op", .string "rowCount")]
where
  /-- Writes a column over the values of a selector. -/
  ofSelector (op selector : String) : Json :=
    .object [("op", .string op), ("selector", .string selector)]

end Column

namespace PlannedSummary

/-- Writes what a plan computes over its rows. -/
def toJson (a : PlannedSummary) : Json :=
  .object [("kind", .string a.kind.name), ("position", .int a.position)]

end PlannedSummary

namespace Projection

/-- Writes a plan. -/
def toJson (p : Projection) : Json :=
  .object [("groupCount", .int p.groupCount), ("columns", .array (p.columns.map Column.toJson)),
    ("total", .array (p.total.map PlannedSummary.toJson)),
    ("group", .array (p.group.map PlannedSummary.toJson)),
    ("countPosition", .int p.countPosition)]

end Projection

namespace Regrouped

/-- Writes what flat rows were folded into; what was not asked for is left out. -/
def toJson (r : Regrouped) : Json :=
  let groups := match r.groups with
    | some gs => [("groups", Json.array (Subtree.groupsToJson Row.toJson gs))]
    | none => []
  let totals := match r.totals with
    | some values => [("totals", Json.array (Value.itemsToJson values))]
    | none => []
  .object (groups ++ totals ++ [("totalCount", .int r.totalCount.toInt)])

end Regrouped

end DataGrid
