import DataGrid.Criteria
import DataGrid.Grouping
import DataGrid.Settings
import DataGrid.Sorting
import DataGrid.Summary

/-!
# Requests

* `LoadRequest` holds what a client asks for, and `LoaderSettings` what holds for all its requests.
* `LoadRequest.pageSize` bounds the number of records or groups by both; a bound of zero that a
  client sends is none.
-/

namespace DataGrid

/-- The level of sorting that puts the groups of a level in order. -/
def Grouping.toSorting (g : Grouping) : Sorting := ⟨g.selector, g.desc⟩

/-- What a client asks for. -/
structure LoadRequest where
  /-- how many records or groups are passed over -/
  skip : Nat
  /-- how many are given at most -/
  take : Option Nat
  /-- whether the number of matching records is wanted -/
  requireTotalCount : Bool
  /-- whether the number of groups is wanted -/
  requireGroupCount : Bool
  /-- whether nothing but the number of matching records is wanted -/
  isCountQuery : Bool
  /-- the criteria as they were sent -/
  filter : Option Json
  /-- the levels of sorting -/
  sort : List Sorting
  /-- the levels of grouping -/
  group : List Grouping
  /-- the summaries over all matching records -/
  totalSummary : List Summary
  /-- the summaries of each group -/
  groupSummary : List Summary
  /-- whether a backend is to group, if the client says so -/
  remoteGrouping : Option Bool
  /-- whether texts are compared in lower case, if the client says so -/
  stringToLower : Option Bool

namespace LoadRequest

/-- A request for everything. -/
def everything : LoadRequest :=
  ⟨0, none, false, false, false, none, [], [], [], [], none, none⟩

variable (o : LoadRequest)

/-- The criteria, if there are any. -/
def criteria : Option Json :=
  match o.filter with
  | none | some .null | some (.array []) => none
  | some j => some j

/-- Whether groups are asked for. -/
def isGrouped : Bool := !o.group.isEmpty

/-- Whether the innermost groups are shown without their rows. -/
def innermostCollapsed : Bool :=
  match o.group.getLast? with
  | some g => !g.expanded
  | none => false

/-- The number of records or groups that are given at most, under a greatest one. -/
def pageSize (greatest : Option Nat) : Option Nat :=
  match o.take.filter (0 < ·), greatest with
  | some t, some g => some (min t g)
  | none, some g => some g
  | take, none => take

end LoadRequest

/-- What holds for all requests of a loader. -/
structure LoaderSettings where
  /-- how filters and paths are compiled -/
  engine : Settings
  /-- whether backends group, if a request does not say -/
  remoteGrouping : Option Bool
  /-- the greatest number of records or groups that are given -/
  maxTake : Option Nat
  deriving DecidableEq

namespace LoaderSettings

/-- What holds when nothing is said. -/
def standard : LoaderSettings := ⟨.standard, none, none⟩

/-- The settings with backends grouping or not. -/
def groupingRemotely (c : LoaderSettings) (on : Bool) : LoaderSettings :=
  { c with remoteGrouping := some on }

/-- The settings with a greatest number of records or groups. -/
def limitedTo (c : LoaderSettings) (greatest : Nat) : LoaderSettings :=
  { c with maxTake := some greatest }

end LoaderSettings

end DataGrid
