import DataGrid.Json.Printer

/-!
# Causes of failure

* `CompileError` says why criteria, paths or summaries do not fit a shape.
* `ReadError` says why a record or a row cannot be read.
* `RequestError` is either, for work that compiles and reads.

Each cause has one `message`.
-/

namespace DataGrid

/-- Why criteria are malformed. -/
inductive CriteriaFault where
  /-- an empty array stands for a clause -/
  | emptyArray
  /-- something else than an array stands for a clause -/
  | noArray (found : Json)
  /-- a group holds something that is neither a clause nor a connector -/
  | strayMember (found : Json)
  /-- nothing follows the mark of a negation -/
  | noOperand
  /-- a binary clause has too few elements -/
  | tooShort (size : Nat)
  /-- a group holds no clause -/
  | noClauses
  /-- a custom compiler refuses a clause for a reason of its own -/
  | refused (reason : String)

namespace CriteriaFault

/-- The text of the fault. -/
def message : CriteriaFault → String
  | emptyArray => "empty criteria array"
  | noArray found => "expected an array, found " ++ found.render
  | strayMember found => "unexpected group member " ++ found.render
  | noOperand => "negation without an operand"
  | tooShort size =>
    "binary clause needs at least two elements, found " ++ String.ofList (Integer.text size)
  | noClauses => "group without clauses"
  | refused reason => reason

end CriteriaFault

/-- What the values of a type can lack. -/
inductive Capability where
  /-- telling values equal -/
  | equality
  /-- ordering values -/
  | ordering
  deriving DecidableEq

namespace Capability

/-- The name of the capability. -/
def name : Capability → String
  | equality => "equality"
  | ordering => "ordering"

end Capability

/-- Why a summary is refused. -/
inductive SummaryFault where
  /-- no kind of summary has the name -/
  | unknownKind
  /-- the kind needs a selector and there is none -/
  | noSelector
  /-- the type of the selector lacks what the kind needs -/
  | unfitType (selector typeName : String)
  deriving DecidableEq

namespace SummaryFault

/-- The text of the fault. -/
def message : SummaryFault → String
  | unknownKind => "unknown summary type"
  | noSelector => "a selector is required"
  | unfitType selector typeName => "'" ++ selector ++ "' has type " ++ typeName

end SummaryFault

/-- Why criteria, a path or a summary do not fit a shape. -/
inductive CompileError where
  /-- a shape has no such member -/
  | unknownMember (path member shape : String)
  /-- clauses of one group are joined by both connectors -/
  | mixedConnectors
  /-- no comparison has the token -/
  | unsupportedOperator (token : String)
  /-- the type of a path lacks what the comparison needs -/
  | notComparable (path typeName : String) (capability : Capability)
  /-- the criteria are malformed -/
  | malformedCriteria (fault : CriteriaFault)
  /-- a summary is refused -/
  | invalidAggregate (kind : String) (fault : SummaryFault)
  /-- custom compilers call the compiler again without end -/
  | endlessNesting

namespace CompileError

/-- The text of the error. -/
def message : CompileError → String
  | unknownMember path member shape =>
    "unknown member '" ++ member ++ "' in path '" ++ path ++ "' of shape '" ++ shape ++ "'"
  | mixedConnectors => "mixing of and/or is not allowed inside a single group"
  | unsupportedOperator token => "unsupported operator: " ++ token
  | notComparable path typeName capability =>
    "type '" ++ typeName ++ "' of '" ++ path ++ "' does not support " ++ capability.name
  | malformedCriteria fault => "malformed criteria: " ++ fault.message
  | invalidAggregate kind fault => "invalid " ++ kind ++ " aggregate: " ++ fault.message
  | endlessNesting => "custom compilers nest without end"

end CompileError

/-- Why a record or a row cannot be read. -/
inductive ReadError where
  /-- a null stands where a member is to be read -/
  | nullReference (path : String)
  /-- a row is too short -/
  | missingField (position width : Nat)
  /-- a value is of another kind -/
  | typeMismatch (expected found : String)
  /-- a sum of spans leaves their range -/
  | spanOverflow
  /-- a custom predicate fails for a reason of its own -/
  | failed (reason : String)
  deriving DecidableEq

namespace ReadError

/-- The text of the error. -/
def message : ReadError → String
  | nullReference path => "null reference while reading '" ++ path ++ "'"
  | missingField position width =>
    "flat row has no field at position " ++ String.ofList (Integer.text position) ++ " (width "
      ++ String.ofList (Integer.text width) ++ ")"
  | typeMismatch expected found => "type mismatch: expected " ++ expected ++ ", found " ++ found
  | spanOverflow => "custom predicate failed: duration sum overflow"
  | failed reason => "custom predicate failed: " ++ reason

end ReadError

/-- Why work that compiles and reads fails. -/
inductive RequestError where
  /-- it does not compile -/
  | compile (error : CompileError)
  /-- it cannot be read -/
  | read (error : ReadError)

namespace RequestError

/-- The text of the error. -/
def message : RequestError → String
  | compile error => error.message
  | read error => error.message

end RequestError

end DataGrid
