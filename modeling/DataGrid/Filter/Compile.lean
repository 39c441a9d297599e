import DataGrid.Accessor.Resolver
import DataGrid.Criteria
import DataGrid.Filter.Clause

/-!
# Compiling criteria

`Filter.compileWith` makes a predicate of criteria, given how binary clauses are compiled.

* A negation negates, and a group joins its clauses by `and` or by `or`. The connector before a
  clause is the last one since the clause before it, and `and` if there is none.
* The connectors before the second, third and later clauses of one group have to agree. A group of
  one clause is that clause.
* `Filter.compile` compiles clauses against a shape, and `Filter.compileClauseResolving` one clause
  with a resolver that remembers.
-/

namespace DataGrid.Filter

/-- Whether a connector is `and`: it has that word in any letter case, or an ampersand. -/
def isConjunction (token : String) : Bool :=
  TextTest.occursIn ['a', 'n', 'd'] (token.toList.map Char.toLower) || token.toList.contains '&'

/-- The operator that stands for one left out. -/
def defaultOperation : String := "="

/-- A group in the middle of being compiled. -/
structure Joining where
  /-- the clauses so far, first to last -/
  operands : List Predicate
  /-- whether the connector before the last clause is `and` -/
  conjunction : Bool
  /-- whether the connector before the next clause is `and` -/
  next : Bool

namespace Joining

/-- A group before its first item. -/
def start : Joining := ⟨[], true, true⟩

/-- Whether the connector before the next clause disagrees with the ones before. -/
def disagrees (j : Joining) : Bool := decide (1 < j.operands.length) && j.conjunction != j.next

/-- The group after a connector. -/
def connect (j : Joining) (token : String) : Joining := { j with next := isConjunction token }

/-- The group after a clause. -/
def push (j : Joining) (p : Predicate) : Joining := ⟨j.operands ++ [p], j.next, true⟩

/-- The predicate of the whole group. -/
def finish (j : Joining) : Except CompileError Predicate :=
  match j.operands with
  | [] => .error (.malformedCriteria .noClauses)
  | [p] => .ok p
  | parts => .ok (if j.conjunction then .all parts else .any parts)

end Joining

section Compile

variable {m : Type → Type} [Monad m] [MonadExceptOf CompileError m]
variable (binary : String → String → Value → m Predicate)

mutual

/-- The predicate of criteria, given that of each path, operator and literal. -/
def compileWith : Criteria → m Predicate
  | .binary path operation value =>
    binary path ((operation.map Text.lowerCase).getD defaultOperation) value
  | .negation inner => return (← compileWith inner).negate
  | .group items => compileItems items .start

/-- The predicate of the rest of a group. -/
def compileItems : List CriteriaItem → Joining → m Predicate
  | [], j => liftExcept j.finish
  | .connector token :: rest, j => compileItems rest (j.connect token)
  | .clause c :: rest, j => do
    if j.disagrees then throw CompileError.mixedConnectors
    compileItems rest (j.push (← compileWith c))

end

end Compile

/-- The predicate of a path, an operator and a literal. -/
def compileClause (s : Settings) (shape : Shape) (path operation : String) (value : Value) :
    Except CompileError Predicate :=
  match Accessor.ofPath shape s.guardNulls path with
  | .ok a => Clause.compile s a operation value
  | .error e => .error e

/-- The predicate of criteria over a shape. -/
def compile (s : Settings) (shape : Shape) (c : Criteria) : Except CompileError Predicate :=
  compileWith (compileClause s shape) c

/-- The predicate of a path, an operator and a literal, with the memory of a resolver. -/
def compileClauseResolving (s : Settings) (path operation : String) (value : Value) :
    Resolving Predicate := do
  let a ← Resolver.resolve path
  liftExcept (Clause.compile s a operation value)

end DataGrid.Filter
