import DataGrid.Projection.Basic
import DataGrid.Grouping
import DataGrid.Requesting

/-!
# From flat rows back to groups

`Projection.regroup` makes the plan of a request again, groups flat rows by the keys in them, and
computes totals and summaries from their fields. The extra total of the plan is the number of all
rows, and null sums become zeros.
-/

namespace DataGrid

/-- What flat rows are folded into. -/
structure Regrouped where
  /-- the tree of groups, if there are levels -/
  groups : Option (List (Group Row))
  /-- the totals, if any were asked for -/
  totals : Option (List Value)
  /-- the number of all rows -/
  totalCount : Int64

namespace Projection

open Requesting

/-- The key of a flat row at a level. -/
def keyAt (row : Row) (level : Nat) : Except ReadError Value := row.get (level + 1)

/-- Flat rows as a tree. -/
def treeOf (groupCount : Nat) (rows : List Row) : Except ReadError (Subtree Row) :=
  if 0 < groupCount then (Grouping.byLevels keyAt groupCount rows).map .groups
  else .ok (.rows rows)

/-- The aggregates over flat rows. -/
def rollup (p : Projection) : Rollup :=
  ⟨p.total.map PlannedSummary.measure, p.group.map PlannedSummary.measure⟩

/-- The number of all rows at the end of the totals, and the totals before it. -/
def takeCount (totals : List Value) : Except ReadError (Int64 × List Value) :=
  match totals.getLast? with
  | some (.int n) => .ok (n, totals.dropLast)
  | some other => .error (wrongKind "int" other)
  | none => .ok (0, totals)

/-- The groups of a tree, if it has any level. -/
def groupsOf? : Subtree Row → Option (List (Group Row))
  | .groups gs => some gs
  | _ => none

/-- Folds flat rows into a tree with totals and summaries. -/
def regroup (rows : List Row) (groupCount : Nat) (total group : List Summary) :
    Requesting Regrouped := do
  let plan ← compiling (make groupCount total group)
  let data ← reading (treeOf groupCount rows)
  let (data, totals) ← reading (plan.rollup.run Row.read data)
  let (totalCount, totals) ← reading (takeCount (totals.getD []))
  let (data, totals) ← zeroSums total group data (some totals)
  return ⟨groupsOf? data, totals.filter (!·.isEmpty), totalCount⟩

end Projection

end DataGrid
