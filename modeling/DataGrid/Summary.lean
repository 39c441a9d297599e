import DataGrid.Accessor.Resolver

/-!
# Summaries

A `Summary` asks for one value over many rows: a kind, and a selector unless the kind counts.

* `SummaryKind.ofName?` reads the name of a kind in any case of ASCII letters.
* `Summary.resolve` resolves the selector and checks its type: sums and averages need a type with
  sums, extremes a type with an order, and a dynamic member is checked when it is read.
-/

namespace DataGrid

/-- What a summary computes. The remote kinds are for plans that a backend executes. -/
inductive SummaryKind where
  /-- the sum of the values -/
  | sum
  /-- the number of rows -/
  | count
  /-- the average of the values -/
  | avg
  /-- the least value -/
  | min
  /-- the greatest value -/
  | max
  /-- the sum of row counts -/
  | remoteCount
  /-- a sum of sums over a sum of counts -/
  | remoteAvg
  deriving DecidableEq

namespace SummaryKind

/-- The name of a kind. -/
def name : SummaryKind → String
  | sum => "sum"
  | count => "count"
  | avg => "avg"
  | min => "min"
  | max => "max"
  | remoteCount => "REMOTE_COUNT"
  | remoteAvg => "REMOTE_AVG"

/-- The kind with a name. -/
def ofName? (name : String) : Option SummaryKind :=
  match Text.lowerAscii name with
  | "sum" => some sum
  | "count" => some count
  | "avg" => some avg
  | "min" => some min
  | "max" => some max
  | "remote_count" => some remoteCount
  | "remote_avg" => some remoteAvg
  | _ => none

/-- The kind with a name, or why there is none. -/
def ofName (name : String) : Except CompileError SummaryKind :=
  match ofName? name with
  | some kind => .ok kind
  | none => .error (.invalidAggregate name .unknownKind)

/-- Whether the kind reads a selector. -/
def readsSelector : SummaryKind → Bool
  | count | remoteCount => false
  | _ => true

/-- Whether the values of a type have what the kind needs. -/
def admits (kind : SummaryKind) (type : FieldType) : Bool :=
  type.isDynamic ||
    match kind with
    | sum | avg | remoteAvg => type.hasSums
    | _ => type.hasOrder

end SummaryKind

/-- A value that is asked for over many rows. -/
structure Summary where
  /-- the path of the values -/
  selector : Option String
  /-- what is computed of them -/
  kind : SummaryKind
  deriving DecidableEq

namespace Summary

/-- The number of rows. -/
def rows : Summary := ⟨none, .count⟩

/-- Checks the type of a resolved selector. -/
def check (s : Summary) (selector : String) (a : Accessor) :
    Except CompileError (Option Accessor) :=
  if s.kind.admits a.type then .ok (some a)
  else .error (.invalidAggregate s.kind.name (.unfitType selector a.type.name))

/-- The accessor of the selector; none if the kind reads no selector. -/
def resolve (s : Summary) : Resolving (Option Accessor) := do
  if !s.kind.readsSelector then return none
  match s.selector with
  | none => throw (.invalidAggregate s.kind.name .noSelector)
  | some selector =>
    let a ← Resolver.resolve selector
    liftExcept (s.check selector a)

end Summary

end DataGrid
