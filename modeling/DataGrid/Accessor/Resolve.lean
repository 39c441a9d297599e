import DataGrid.Accessor.Basic
import DataGrid.Text.Split

/-!
# Resolving paths

`Accessor.ofPath` resolves a path, whose names stand between points, against a shape. Below a
dynamic member every name is allowed.
-/

namespace DataGrid.Accessor

/-- What is known of a path up to one of its names. -/
structure Reached where
  /-- the steps so far, first to last -/
  steps : List Step
  /-- the type of what they read -/
  type : FieldType
  /-- whether the last step may read a null -/
  nullable : Bool
  /-- whether a step before the last may read a null -/
  nullableBefore : Bool

/-- Goes on to a name. -/
def Reached.enter (r : Reached) (path name : String) : Except CompileError Reached :=
  let unknown (owner : String) : Except CompileError Reached :=
    .error (.unknownMember path name owner)
  let before := r.nullableBefore || r.nullable
  if name = "" then unknown r.type.name
  else
    match r.type with
    | .object shape =>
      match shape.field? name with
      | some f =>
        .ok ⟨r.steps ++ [.member f.name f.type f.nullable], f.type, f.nullable, before⟩
      | none => unknown shape.name
    | .dynamic => .ok ⟨r.steps ++ [.dynamicMember name], .dynamic, true, before⟩
    | other => unknown other.name

/-- Goes on to one name after another. -/
def Reached.enterAll (path : String) : List String → Reached → Except CompileError Reached
  | [], r => .ok r
  | name :: rest, r =>
    match r.enter path name with
    | .ok next => Reached.enterAll path rest next
    | .error e => .error e

/-- The accessor of a path of a shape. -/
def ofPath (shape : Shape) (guardNulls : Bool) (path : String) : Except CompileError Accessor :=
  match Reached.enterAll path (Text.parts '.' path) ⟨[], .object shape, false, false⟩ with
  | .ok r => .ok ⟨path, r.steps, r.type, r.nullable || (guardNulls && r.nullableBefore), guardNulls⟩
  | .error e => .error e

end DataGrid.Accessor
