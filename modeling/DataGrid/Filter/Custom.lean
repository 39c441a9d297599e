import DataGrid.Filter.Compile

/-!
# Custom compilers

A custom compiler sees binary clauses before they are compiled as usual. It is given what it sees
as a `ClauseInfo`, and it acts by a `Script`: it may resolve paths, compile clauses as usual,
compile whole criteria again, and change the registry of custom compilers; at the end it declines
the clause, claims it with a predicate, or refuses it.

* A `Session` holds what one compiler of criteria keeps: its resolver, the registry it is attached
  to, and the snapshot of that registry, which is taken at the first binary clause and then stays.
* `Session.compile` compiles criteria. The compilers of the snapshot are asked in order; the first
  that does not decline decides, and if all decline the clause is compiled as usual.
* A custom compiler that compiles criteria goes one level deeper; `nestingLimit` bounds the levels.
-/

namespace DataGrid

/-- What a custom compiler sees of a binary clause. -/
structure ClauseInfo where
  /-- the path as it was written -/
  accessor : String
  /-- the operator in lower case -/
  operation : String
  /-- the literal -/
  value : Value
  /-- whether texts are compared in lower case -/
  stringToLower : Bool
  /-- the shape of the records -/
  shape : Shape

/-- What a custom compiler does with a clause. -/
inductive Script where
  /-- ends with a claim, a refusal, or no claim -/
  | answer (outcome : Except CompileError (Option Predicate))
  /-- resolves a path -/
  | resolve (path : String) (next : Except CompileError Accessor → Script)
  /-- compiles a clause as usual -/
  | compileUsual (path operation : String) (value : Value)
    (next : Except CompileError Predicate → Script)
  /-- compiles criteria, custom compilers included -/
  | compile (criteria : Criteria) (next : Except CompileError Predicate → Script)
  /-- puts a compiler at the end of the registry -/
  | register (compiler : ClauseInfo → Script) (next : Script)
  /-- empties the registry -/
  | clear (next : Script)

namespace Script

/-- Leaves the clause to others. -/
def decline : Script := answer (.ok none)

/-- Decides the clause. -/
def claim (p : Predicate) : Script := answer (.ok (some p))

/-- Decides the clause by the outcome of a compilation. -/
def settle (outcome : Except CompileError Predicate) : Script := answer (outcome.map some)

end Script

/-- A custom compiler. -/
abbrev CustomCompiler := ClauseInfo → Script

/-- Custom compilers in the order of registration. -/
abbrev Registry := List CustomCompiler

/-- What one compiler of criteria keeps. -/
structure Session where
  /-- how filters are compiled -/
  settings : Settings
  /-- the paths resolved so far -/
  resolver : Resolver
  /-- the custom compilers at hand, if it is attached to a registry -/
  registry : Option Registry
  /-- the custom compilers that decide its clauses, once there was one -/
  snapshot : Option Registry

/-- Work of a compiler of criteria. -/
abbrev Filtering (α : Type) := ExceptT CompileError (StateM Session) α

namespace Session

/-- A compiler that has compiled nothing. -/
def fresh (settings : Settings) (shape : Shape) (registry : Option Registry) : Session :=
  ⟨settings, .fresh shape settings.guardNulls, registry, none⟩

/-- Work with the resolver of a session. -/
def resolving {α : Type} (work : Resolving α) : Filtering α :=
  ExceptT.mk fun s =>
    let (outcome, resolver) := work.run.run s.resolver
    (outcome, { s with resolver := resolver })

/-- The outcome of work that may fail. -/
def observe {α : Type} (work : Filtering α) : Filtering (Except CompileError α) :=
  ExceptT.mk fun s =>
    let (outcome, s) := work.run.run s
    (.ok outcome, s)

/-- Compiles a clause as usual. -/
def usual (path operation : String) (value : Value) : Filtering Predicate := do
  let s ← get
  resolving (Filter.compileClauseResolving s.settings path operation value)

/-- Changes the registry. -/
def update (change : Registry → Registry) : Filtering Unit :=
  modify fun s => { s with registry := s.registry.map change }

/-- Acts by a script; `nested` compiles criteria one level deeper. -/
def act (nested : Criteria → Filtering Predicate) : Script → Filtering (Option Predicate)
  | .answer outcome => liftExcept outcome
  | .resolve path next => do act nested (next (← observe (resolving (Resolver.resolve path))))
  | .compileUsual path operation value next => do
    act nested (next (← observe (usual path operation value)))
  | .compile criteria next => do act nested (next (← observe (nested criteria)))
  | .register compiler next => do
    update (· ++ [compiler])
    act nested next
  | .clear next => do
    update fun _ => []
    act nested next

/-- Asks compilers in order until one does not decline. -/
def consult (nested : Criteria → Filtering Predicate) (info : ClauseInfo) :
    Registry → Filtering (Option Predicate)
  | [] => return none
  | compiler :: rest => do
    match ← act nested (compiler info) with
    | some p => return some p
    | none => consult nested info rest

/-- The snapshot that decides a clause, taken now if there is none; no compilers without a
registry. -/
def snapshotNow : Filtering Registry := do
  let s ← get
  match s.registry with
  | none => return []
  | some registry =>
    let snapshot := s.snapshot.getD registry
    set { s with snapshot := some snapshot }
    return snapshot

/-- Compiles a clause: the custom compilers first, then as usual. -/
def clause (nested : Criteria → Filtering Predicate) (path operation : String) (value : Value) :
    Filtering Predicate := do
  let snapshot ← snapshotNow
  let s ← get
  let info := ⟨path, operation, value, s.settings.stringToLower, s.resolver.shape⟩
  match ← consult nested info snapshot with
  | some p => return p
  | none => usual path operation value

/-- Compiles criteria with a number of levels left. -/
def compileWithin : Nat → Criteria → Filtering Predicate
  | 0 => fun _ => throw .endlessNesting
  | levels + 1 => Filter.compileWith (clause (compileWithin levels))

/-- The greatest number of levels. -/
def nestingLimit : Nat := 4096

/-- Compiles criteria. -/
def compile (c : Criteria) : Filtering Predicate := compileWithin nestingLimit c

/-- Compiles the JSON form of criteria. -/
def compileJson (j : Json) : Filtering Predicate := do
  compile (← liftExcept (Criteria.ofJson j))

end Session

end DataGrid
