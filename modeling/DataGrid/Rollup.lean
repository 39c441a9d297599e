import DataGrid.RunningSum
import DataGrid.Group
import DataGrid.Summary

/-!
# Aggregates of a tree of groups

A `Rollup` computes aggregates over all rows of a tree and over the rows under each group.

* A `Measure` is one aggregate: a kind and the fields that it reads. A `Tally` is its state while
  rows are folded in.
* `Rollup.run` walks a tree once. Each row is folded into the totals and into the tallies of all
  groups around it; a group that is left gets its summary.
-/

namespace DataGrid

/-- Where an aggregate reads. -/
inductive Source where
  /-- a path of a record -/
  | accessor (a : Accessor)
  /-- a position of a row -/
  | position (n : Nat)

/-- One aggregate. -/
structure Measure where
  /-- what is computed -/
  kind : SummaryKind
  /-- the field that is read; none if rows are counted -/
  field : Option Source
  /-- the field of the counts that belong to sums -/
  countField : Option Source

namespace Measure

/-- An aggregate without a field of counts. -/
def of (kind : SummaryKind) (field : Option Source) : Measure := ⟨kind, field, none⟩

/-- An average of sums and counts at two positions of a row. -/
def pairedAvg (sum count : Nat) : Measure :=
  ⟨.remoteAvg, some (.position sum), some (.position count)⟩

end Measure

/-- The state of one aggregate. -/
inductive Tally where
  /-- a sum, and whether there was a value -/
  | sum (total : RunningSum) (seen : Bool)
  /-- a number of rows -/
  | count (n : Nat)
  /-- a sum and the number of its values -/
  | avg (total : RunningSum) (n : Nat)
  /-- the least value so far -/
  | min (least : Option Value)
  /-- the greatest value so far -/
  | max (greatest : Option Value)
  /-- a sum of counts -/
  | remoteCount (n : Int64)
  /-- a sum of sums and a sum of counts -/
  | remoteAvg (total : RunningSum) (n : Int64)

namespace Tally

/-- The state of a kind before any row. -/
def start : SummaryKind → Tally
  | .sum => sum .empty false
  | .count => count 0
  | .avg => avg .empty 0
  | .min => min none
  | .max => max none
  | .remoteCount => remoteCount 0
  | .remoteAvg => remoteAvg .empty 0

/-- The value that is kept of the one so far and another: the new one if there was none or if it
comes out as wanted against it. Nulls are passed over. -/
def keepBetter (wanted : Ordering) (current : Option Value) (candidate : Value) : Option Value :=
  if candidate.isNull then current
  else
    match current with
    | some v => if candidate.order v = wanted then some candidate else some v
    | none => some candidate

/-- The count that a value gives; a null gives none. -/
def countOf : Value → Except ReadError Int64
  | .null => .ok 0
  | .int i => .ok i
  | .float x =>
    if x.isIntegral then .ok (Integer.saturate x.roundToInt)
    else .error (wrongKind "count" (.float x))
  | other => .error (wrongKind "count" other)

/-- The sum of two counts, kept within a word. -/
def addCounts (a b : Int64) : Int64 := Integer.saturate (a.toInt + b.toInt)

/-- A running sum with a value, if it is one. -/
def addValue (total : RunningSum) (v : Value) : Except ReadError RunningSum :=
  if v.isNull then .ok total else total.add v

/-- The value of a field that may be absent. -/
def readOptional {α : Type} (read : Source → α → Except ReadError Value) (row : α) :
    Option Source → Except ReadError Value
  | some field => read field row
  | none => .ok .null

/-- The state with one more row, given the value of its field. -/
def stepWith (t : Tally) (v : Value) (countValue : Except ReadError Value) :
    Except ReadError Tally :=
  match t with
  | sum total seen => (addValue total v).map fun total => sum total (seen || !v.isNull)
  | count n => .ok (count (n + 1))
  | avg total n => (addValue total v).map fun total => avg total (if v.isNull then n else n + 1)
  | min least => .ok (min (keepBetter .lt least v))
  | max greatest => .ok (max (keepBetter .gt greatest v))
  | remoteCount n => (countOf v).map fun c => remoteCount (addCounts n c)
  | remoteAvg total n => do
    let total ← addValue total v
    let c ← countOf (← countValue)
    return remoteAvg total (addCounts n c)

/-- The state with one more row. -/
def step {α : Type} (read : Source → α → Except ReadError Value) (m : Measure) (t : Tally)
    (row : α) : Except ReadError Tally := do
  let v ← readOptional read row m.field
  t.stepWith v (readOptional read row m.countField)

/-- The value of the aggregate. -/
def finish : Tally → Value
  | sum total seen => if seen then total.value else .null
  | count n => .int (Integer.saturate n)
  | avg total n => total.divide n
  | min v | max v => v.getD .null
  | remoteCount n => .int n
  | remoteAvg total n => total.divide n.toInt.toNat

end Tally

/-- Aggregates over all rows and over the rows of each group. -/
structure Rollup where
  /-- those over all rows -/
  total : List Measure
  /-- those over the rows of each group -/
  group : List Measure

namespace Rollup

/-- The totals, and the tallies of the groups around the current place, outermost first. -/
structure Open where
  /-- the tallies over all rows -/
  totals : List Tally
  /-- the tallies of each group that is not left yet -/
  stack : List (List Tally)

/-- The tallies of measures before any row. -/
def fresh (measures : List Measure) : List Tally := measures.map fun m => Tally.start m.kind

section Run

variable {α : Type} (read : Source → α → Except ReadError Value)

/-- Folds a row into the tallies of measures. -/
def stepAll : List Measure → List Tally → α → Except ReadError (List Tally)
  | m :: ms, t :: ts, row => do
    let t ← t.step read m row
    return t :: (← stepAll ms ts row)
  | _, ts, _ => .ok ts

/-- Folds a row into every set of tallies. -/
def stepStack (measures : List Measure) (row : α) :
    List (List Tally) → Except ReadError (List (List Tally))
  | [] => .ok []
  | set :: rest => do
    let set ← stepAll read measures set row
    return set :: (← stepStack measures row rest)

/-- Folds a row into the totals, then into the tallies of the groups around it. -/
def enterRow (r : Rollup) (o : Open) (row : α) : Except ReadError Open := do
  let totals ← stepAll read r.total o.totals row
  return ⟨totals, ← stepStack read r.group row o.stack⟩

/-- Opens the tallies of a group. -/
def push (r : Rollup) (o : Open) : Open :=
  if r.group.isEmpty then o else { o with stack := o.stack ++ [fresh r.group] }

/-- The summary of the group that is left; none if none was asked for. -/
def summaryOf (r : Rollup) (o : Open) : Option (List Value) :=
  if r.group.isEmpty then none else o.stack.getLast?.map fun set => set.map Tally.finish

/-- Closes the tallies of the group that is left. -/
def pop (r : Rollup) (o : Open) : Open :=
  if r.group.isEmpty then o else { o with stack := o.stack.dropLast }

mutual

/-- Walks what stands under a group. -/
def walk (r : Rollup) : Subtree α → Open → Except ReadError (Subtree α × Open)
  | .groups gs, o => do
    let (gs, o) ← walkGroups r gs o
    return (.groups gs, o)
  | .rows rs, o => do return (.rows rs, ← rs.foldlM (enterRow read r) o)
  | .dropped, o => .ok (.dropped, o)

/-- Walks groups one after another. -/
def walkGroups (r : Rollup) : List (Group α) → Open → Except ReadError (List (Group α) × Open)
  | [], o => .ok ([], o)
  | .mk key items count summary :: rest, o => do
    let (items, inner) ← walk r items (r.push o)
    let summary := (r.summaryOf inner).or summary
    let (rest, o) ← walkGroups r rest (r.pop inner)
    return (.mk key items count summary :: rest, o)

end

/-- The tree with the summaries of its groups, and the totals if any were asked for. -/
def run (r : Rollup) (data : Subtree α) :
    Except ReadError (Subtree α × Option (List Value)) := do
  let (data, o) ← walk read r data ⟨fresh r.total, []⟩
  return (data, if r.total.isEmpty then none else some (o.totals.map Tally.finish))

end Run

/-- The measure of a summary over records. -/
def measureOf (s : Summary) : Resolving Measure := do
  return .of s.kind ((← s.resolve).map .accessor)

/-- The aggregates of summaries over records. -/
def overRecords (total group : List Summary) : Resolving Rollup := do
  let total ← total.mapM measureOf
  return ⟨total, ← group.mapM measureOf⟩

/-- Reads a field of a record; a record has no positions. -/
def readRecord : Source → Value → Except ReadError Value
  | .accessor a, record => a.read record
  | .position _, record => .error (wrongKind "flat row" record)

end Rollup

end DataGrid
