import DataGrid.Projection.Basic
import DataGrid.Grouping
import DataGrid.Predicate
import DataGrid.Sorting

/-!
# Records in memory

A `Store` holds records of a shape and answers queries over those that match a predicate.

* `Store.load` sorts them and gives a page, and `Store.count` gives their number.
* `Store.project` collects them by the tuple of their keys and computes the columns of a plan
  over each bucket. Sums and extremes of nothing but nulls are null. Without keys there is exactly
  one row, even over no records.

A null on the way of a path is read as null here.
-/

namespace DataGrid

/-- Why a store gives no answer. -/
inductive StoreError where
  /-- the request was cancelled before the query -/
  | cancelled
  /-- a path does not resolve -/
  | compile (error : CompileError)
  /-- a record cannot be read -/
  | read (error : ReadError)
  /-- the values of a selector have no sum -/
  | notSummable (selector : String)

namespace StoreError

/-- The text of the error. -/
def message : StoreError → String
  | cancelled => "query cancelled"
  | compile error => error.message
  | read error => error.message
  | notSummable selector => "cannot sum '" ++ selector ++ "': no additive type"

end StoreError

/-- A query for a sorted page of records. -/
structure PageQuery where
  /-- which records match -/
  predicate : Predicate
  /-- how they are sorted -/
  sort : List Sorting
  /-- how many are passed over -/
  skip : Nat
  /-- how many are given at most -/
  take : Option Nat

namespace PageQuery

/-- All matching records in the order in which they are held. -/
def all (predicate : Predicate) : PageQuery := ⟨predicate, [], 0, none⟩

end PageQuery

/-- A query for flat rows, one for each combination of keys, in the order of the keys. -/
structure ProjectionQuery where
  /-- which records match -/
  predicate : Predicate
  /-- the levels of the keys -/
  grouping : List Grouping
  /-- what stands in a row -/
  plan : Projection

/-- A page of a list. -/
def page {α : Type} (skip : Nat) (take : Option Nat) (xs : List α) : List α :=
  match take with
  | some n => (xs.drop skip).take n
  | none => xs.drop skip

/-- Records of a shape. -/
structure Store where
  /-- the shape of the records -/
  shape : Shape
  /-- the records in the order of insertion -/
  records : List Value

namespace Store

/-- The store with one more record. -/
def insert (s : Store) (record : Value) : Store := { s with records := s.records ++ [record] }

/-- The number of records. -/
def size (s : Store) : Nat := s.records.length

/-- The records that match, or the error of the first that cannot be decided. -/
def select (predicate : Predicate) : List Value → Except ReadError (List Value)
  | [] => .ok []
  | record :: rest =>
    match predicate.evaluate record with
    | .ok true => (select predicate rest).map (record :: ·)
    | .ok false => select predicate rest
    | .error e => .error e

/-- The records of a store that match. -/
def selected (s : Store) (cancelled : Bool) (predicate : Predicate) :
    Except StoreError (List Value) :=
  if cancelled then .error .cancelled else (select predicate s.records).mapError .read

/-- Work that resolves paths of the store, with nothing remembered before. -/
def resolving {α : Type} (s : Store) (work : Resolving α) : Except StoreError α :=
  (work.run.run (Resolver.fresh s.shape true)).1.mapError .compile

/-- A sorted page of the records that match. -/
def load (s : Store) (cancelled : Bool) (q : PageQuery) : Except StoreError (List Value) := do
  let records ← s.selected cancelled q.predicate
  let sorter ← s.resolving (Sorter.make q.sort)
  match sorter.sort records with
  | ⟨records, none⟩ => return page q.skip q.take records
  | ⟨_, some e⟩ => throw (.read e)

/-- The number of records that match. -/
def count (s : Store) (cancelled : Bool) (predicate : Predicate) : Except StoreError Nat := do
  return (← s.selected cancelled predicate).length

/-! ## Flat rows -/

/-- A column and the accessor of its selector, if it has one. -/
structure ResolvedColumn where
  /-- what is computed -/
  column : Column
  /-- where the values are read -/
  accessor : Option Accessor

/-- The selector of a column. -/
def selectorOf? : Column → Option String
  | .sum s | .min s | .max s | .avgSum s | .avgCount s => some s
  | .record | .key _ | .rowCount => none

/-- Resolves the selector of a column. -/
def resolveColumn (c : Column) : Resolving ResolvedColumn := do
  match selectorOf? c with
  | some selector => return ⟨c, some (← Resolver.resolve selector)⟩
  | none => return ⟨c, none⟩

/-- The values of an accessor over records, without the nulls. -/
def valuesOf (accessor : Option Accessor) (members : List Value) :
    Except ReadError (List Value) := do
  match accessor with
  | some a => return (← members.mapM a.read).filter (!·.isNull)
  | none => return []

/-- The sum of values by the type of the accessor; null if there are none. -/
def sumOf (selector : String) (accessor : Option Accessor) (values : List Value) :
    Except StoreError Value :=
  if values.isEmpty then .ok .null
  else
    match accessor.bind fun a => TypedSum.zero? a.type with
    | some zero => ((values.foldlM TypedSum.add zero).map TypedSum.value).mapError .read
    | none => .error (.notSummable selector)

/-- The least of values, the first of several; null if there are none. -/
def leastOf : List Value → Value
  | [] => .null
  | v :: rest => rest.foldl (fun least w => if least.order w = .gt then w else least) v

/-- The greatest of values, the last of several; null if there are none. -/
def greatestOf : List Value → Value
  | [] => .null
  | v :: rest => rest.foldl (fun greatest w => if greatest.order w = .gt then greatest else w) v

/-- The value of a column over the records of a bucket. -/
def cell (c : ResolvedColumn) (key members : List Value) : Except StoreError Value :=
  let values := (valuesOf c.accessor members).mapError StoreError.read
  match c.column with
  | .record => .ok .null
  | .key level => .ok ((key[level]?).getD .null)
  | .rowCount => .ok (.int (Int64.ofInt members.length))
  | .avgCount _ => values.map fun vs => .int (Int64.ofInt vs.length)
  | .sum selector | .avgSum selector => values.bind (sumOf selector c.accessor)
  | .min _ => values.map leastOf
  | .max _ => values.map greatestOf

/-- Whether two tuples of keys are grouped together. -/
def sameTuple (a b : List Value) : Bool :=
  Value.sameItems (a.map Value.groupKey) (b.map Value.groupKey)

/-- The records with the tuple of their keys. -/
def keyedBy (keys : List Accessor) (records : List Value) :
    Except ReadError (List (List Value × Value)) :=
  records.mapM fun record => return (← keys.mapM (·.read record), record)

/-- The buckets of records by the tuple of their keys, in the order of the keys; without keys one
bucket with all of them. -/
def buckets (keys : List Accessor) (grouping : List Grouping) (records : List Value) :
    Except ReadError (List (List Value × List Value)) := do
  let collected := Bucket.collect sameTuple (← keyedBy keys records)
  let collected := if keys.isEmpty && collected.isEmpty then [([], [])] else collected
  return Sorting.arrange
    (fun a b => Sorting.compareKeys (grouping.map Grouping.desc) a.1 b.1) collected

/-- The flat rows of a query. -/
def project (s : Store) (cancelled : Bool) (q : ProjectionQuery) :
    Except StoreError (List Row) := do
  let records ← s.selected cancelled q.predicate
  let (keys, columns) ← s.resolving do
    let keys ← q.grouping.mapM fun g => Resolver.resolve g.selector
    return (keys, ← q.plan.columns.mapM resolveColumn)
  let found ← (buckets keys q.grouping records).mapError .read
  found.mapM fun bucket =>
    return ⟨← columns.mapM fun c => cell c bucket.1 bucket.2⟩

end Store

end DataGrid
