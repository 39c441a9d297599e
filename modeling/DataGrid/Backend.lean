import DataGrid.Store

/-!
# Backends

A `Backend` answers three kinds of calls: for a page of records, for the number of matching records,
and for flat rows.

* The answer to a call is a `Course`: the call ends with an outcome, or waits and goes on later, and
  at each step it may cancel the request.
* An answer may depend on the calls made before it in the same request.
* `Store.backend` answers from memory: every call ends at once and cancels nothing.
-/

namespace DataGrid

/-- How a call goes. -/
inductive Course (ε α : Type) where
  /-- it ends, perhaps cancelling the request -/
  | ends (cancels : Bool) (outcome : Except ε α)
  /-- it goes on later, perhaps cancelling the request -/
  | waits (cancels : Bool) (next : Course ε α)

namespace Course

variable {ε ε' α : Type}

/-- The course with its error converted. -/
def mapError (f : ε → ε') : Course ε α → Course ε' α
  | ends cancels outcome => ends cancels (outcome.mapError f)
  | waits cancels next => waits cancels (mapError f next)

/-- The course that cancels the request at its first step. -/
def cancelling : Course ε α → Course ε α
  | ends _ outcome => ends true outcome
  | waits _ next => waits true next

end Course

/-- A call of a backend. -/
inductive BackendCall where
  /-- for a page of records -/
  | load (query : PageQuery)
  /-- for the number of matching records -/
  | count (predicate : Predicate)
  /-- for flat rows -/
  | flatGroups (query : ProjectionQuery)

/-- What answers queries. An answer may depend on the calls made before it in the same request. -/
structure Backend (ε : Type) where
  /-- the shape of the records -/
  shape : Shape
  /-- whether filters are evaluated on values in memory -/
  inMemory : Bool
  /-- gives a page of records -/
  load : List BackendCall → PageQuery → Course ε (List Value)
  /-- gives the number of matching records -/
  count : List BackendCall → Predicate → Course ε Nat
  /-- gives flat rows -/
  project : List BackendCall → ProjectionQuery → Course ε (List Row)

/-- The backend that answers from a store. -/
def Store.backend (s : Store) : Backend StoreError where
  shape := s.shape
  inMemory := true
  load _ q := .ends false (s.load false q)
  count _ predicate := .ends false (s.count false predicate)
  project _ q := .ends false (s.project false q)

end DataGrid
