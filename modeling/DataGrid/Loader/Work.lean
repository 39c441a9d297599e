import DataGrid.Backend
import DataGrid.Filter.Custom

/-!
# Work on a request

`Loading` is work that makes calls of a backend. It keeps whether the request is cancelled, the
calls made so far, and the custom compilers at hand.

* `Loading.call` makes a call unless the request is cancelled, and follows it until it ends or the
  request is cancelled. A call that fails outranks a cancellation by its own last step.
* A `LoadFailure` says why a request fails.
-/

namespace DataGrid

/-- Why a request fails. -/
inductive LoadFailure (ε : Type) where
  /-- a call of the backend failed -/
  | backend (error : ε)
  /-- the request was cancelled -/
  | cancelled
  /-- the request does not compile -/
  | compile (error : CompileError)
  /-- a record or a row cannot be read -/
  | read (error : ReadError)

namespace LoadFailure

variable {ε : Type}

/-- The text of the error. -/
def message (backendMessage : ε → String) : LoadFailure ε → String
  | backend error => backendMessage error
  | cancelled => "load cancelled"
  | compile error => "invalid request: " ++ error.message
  | read error => "evaluation failed: " ++ error.message

/-- Whether the request was cancelled. -/
def isCancelled : LoadFailure ε → Bool
  | cancelled => true
  | _ => false

/-- The error of work that compiles and reads. -/
def ofRequest : RequestError → LoadFailure ε
  | .compile e => compile e
  | .read e => read e

end LoadFailure

/-- Where a request stands. -/
structure LoadState where
  /-- whether it is cancelled -/
  cancelled : Bool
  /-- the calls made so far, first to last -/
  calls : List BackendCall
  /-- the custom compilers at hand, if there is a registry -/
  registry : Option Registry

/-- Work on a request. -/
abbrev Loading (ε α : Type) := ExceptT (LoadFailure ε) (StateM LoadState) α

namespace Loading

variable {ε α : Type}

/-- Follows a call of a request that is not cancelled, until the call ends or the request is
cancelled: the outcome, and whether the request is cancelled then. -/
def follow : Course ε α → Except (LoadFailure ε) α × Bool
  | .ends cancels (.error e) => (.error (.backend e), cancels)
  | .ends true (.ok _) => (.error .cancelled, true)
  | .ends false (.ok a) => (.ok a, false)
  | .waits true _ => (.error .cancelled, true)
  | .waits false next => follow next

/-- Makes a call, unless the request is cancelled. -/
def call (made : BackendCall) (answer : List BackendCall → Course ε α) : Loading ε α :=
  ExceptT.mk fun s =>
    if s.cancelled then (.error .cancelled, s)
    else
      let (outcome, cancelled) := follow (answer s.calls)
      (outcome, { s with cancelled := cancelled, calls := s.calls ++ [made] })

/-- Work that compiles. -/
def compiling (outcome : Except CompileError α) : Loading ε α :=
  ExceptT.mk fun s => (outcome.mapError .compile, s)

/-- Work that reads. -/
def reading (outcome : Except ReadError α) : Loading ε α :=
  ExceptT.mk fun s => (outcome.mapError .read, s)

/-- Work that compiles and reads. -/
def requesting (outcome : Except RequestError α) : Loading ε α :=
  ExceptT.mk fun s => (outcome.mapError .ofRequest, s)

end Loading

end DataGrid
