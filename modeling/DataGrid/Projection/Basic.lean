import DataGrid.Rollup
import DataGrid.Settings

/-!
# Flat plans

A request for groups and summaries becomes one flat projection that a backend computes with a plain
grouping. A `Projection` says what stands at each position of a flat row:

* position 0 holds the record, empty in rows of aggregates;
* then the group keys, outermost first;
* then the fields of the total summaries and of the group summaries: one for a sum or an extreme,
  two for an average, which are a sum and a count, and none for a count;
* the last position holds the number of rows.

`Projection.make` builds the plan. Its totals end in an extra count, that of all rows.
-/

namespace DataGrid

/-- A flat row. -/
structure Row where
  /-- the values by position -/
  values : List Value

namespace Row

/-- The number of positions. -/
def width (r : Row) : Nat := r.values.length

/-- The value at a position. -/
def get (r : Row) (position : Nat) : Except ReadError Value :=
  match r.values[position]? with
  | some v => .ok v
  | none => .error (.missingField position r.width)

/-- The record of a row, null if the row has no position. -/
def record (r : Row) : Value := r.values.head?.getD .null

/-- Reads a field of a row; a path is read from its record. -/
def read : Source → Row → Except ReadError Value
  | .position n, r => r.get n
  | .accessor a, r => a.read r.record

end Row

/-- What a backend computes for one position. -/
inductive Column where
  /-- the record itself -/
  | record
  /-- the group key of a level -/
  | key (level : Nat)
  /-- the sum of the values of a selector -/
  | sum (selector : String)
  /-- the least value of a selector -/
  | min (selector : String)
  /-- the greatest value of a selector -/
  | max (selector : String)
  /-- the sum of the values of a selector, first half of an average -/
  | avgSum (selector : String)
  /-- the number of the values of a selector, second half of an average -/
  | avgCount (selector : String)
  /-- the number of rows -/
  | rowCount
  deriving DecidableEq

/-- A summary of a plan and the position that it reads; an average reads its sum there and its count
right after. -/
structure PlannedSummary where
  /-- what is computed over the rows -/
  kind : SummaryKind
  /-- the position that is read -/
  position : Nat
  deriving DecidableEq

namespace PlannedSummary

/-- The measure over flat rows. -/
def measure (a : PlannedSummary) : Measure :=
  match a.kind with
  | .remoteAvg => .pairedAvg a.position (a.position + 1)
  | kind => .of kind (some (.position a.position))

end PlannedSummary

/-- A flat projection. -/
structure Projection where
  /-- the number of levels of grouping -/
  groupCount : Nat
  /-- what stands at each position -/
  columns : List Column
  /-- the totals, and after them the number of all rows -/
  total : List PlannedSummary
  /-- the summaries of each group -/
  group : List PlannedSummary
  /-- the position of the number of rows -/
  countPosition : Nat
  deriving DecidableEq

namespace Projection

/-- The number of positions of a row. -/
def width (p : Projection) : Nat := p.columns.length

/-- The columns of a summary whose selector is resolved. -/
def columnsOf (kind : SummaryKind) (selector : String) : List Column :=
  match kind with
  | .count | .remoteCount => []
  | .avg | .remoteAvg => [.avgSum selector, .avgCount selector]
  | .sum => [.sum selector]
  | .min => [.min selector]
  | .max => [.max selector]

/-- The kind that is computed over flat rows for a kind over records. -/
def flatKind : SummaryKind → SummaryKind
  | .count | .remoteCount => .remoteCount
  | .avg | .remoteAvg => .remoteAvg
  | kind => kind

/-- Appends the columns of summaries and gives what reads them; counts get the position at hand for
the time being. -/
def appendColumns :
    List Summary → List Column → Resolving (List PlannedSummary × List Column)
  | [], columns => return ([], columns)
  | s :: rest, columns => do
    let accessor ← s.resolve
    let selector := (accessor.map Accessor.path).getD ""
    let (aggregates, all) ← appendColumns rest (columns ++ columnsOf s.kind selector)
    return (⟨flatKind s.kind, columns.length⟩ :: aggregates, all)

/-- Points a count to the number of rows. -/
def settle (countPosition : Nat) (a : PlannedSummary) : PlannedSummary :=
  if a.kind = .remoteCount then { a with position := countPosition } else a

/-- The plan of a number of levels and of summaries. -/
def make (groupCount : Nat) (total group : List Summary) : Resolving Projection := do
  let keys := .record :: (List.range groupCount).map Column.key
  let (total, columns) ← appendColumns total keys
  let (group, columns) ← appendColumns group columns
  let countPosition := columns.length
  return {
    groupCount := groupCount
    columns := columns ++ [.rowCount]
    total := total.map (settle countPosition) ++ [⟨.remoteCount, countPosition⟩]
    group := group.map (settle countPosition)
    countPosition := countPosition }

end Projection

end DataGrid
