import DataGrid.Bucket
import DataGrid.Group

/-!
# Grouping rows by levels

* A `Grouping` is one level of a request: a selector, its direction, and whether the groups of the
  level are shown with what stands under them.
* `Grouping.byLevels` groups rows into levels that nest. Keys are the same if their `Value.groupKey`
  is; groups appear in the order in which their first row arrives and carry its key.
-/

namespace DataGrid

/-- One level of grouping. -/
structure Grouping where
  /-- the path of the keys -/
  selector : String
  /-- whether greater keys come first -/
  desc : Bool
  /-- whether what stands under the groups is shown; it is if nothing is said -/
  isExpanded : Option Bool
  deriving DecidableEq

namespace Grouping

/-- An ascending level that says nothing about what is shown. -/
def on (selector : String) : Grouping := ⟨selector, false, none⟩

/-- The level with greater keys first. -/
def descending (g : Grouping) : Grouping := { g with desc := true }

/-- The level without what stands under its groups. -/
def collapsed (g : Grouping) : Grouping := { g with isExpanded := some false }

/-- Whether what stands under the groups is shown. -/
def expanded (g : Grouping) : Bool := g.isExpanded.getD true

/-- Whether two keys are grouped together. -/
def sameKey (a b : Value) : Bool := a.groupKey.same b.groupKey

variable {α ε : Type}

/-- Rows with their keys at one level, or the error of the first row without one. -/
def keyed (keyOf : α → Except ε Value) : List α → Except ε (List (Value × α))
  | [] => .ok []
  | row :: rest =>
    match keyOf row with
    | .ok key => (keyed keyOf rest).map ((key, row) :: ·)
    | .error e => .error e

/-- Groups rows at a level and then, under each key, at as many levels below it. -/
def fromLevel (keyOf : α → Nat → Except ε Value) :
    Nat → Nat → List α → Except ε (List (Group α))
  | 0, level, rows => do
    let pairs ← keyed (keyOf · level) rows
    return (Bucket.collect sameKey pairs).map fun bucket => Group.ofRows bucket.1 bucket.2
  | below + 1, level, rows => do
    let pairs ← keyed (keyOf · level) rows
    (Bucket.collect sameKey pairs).mapM fun bucket =>
      return Group.ofGroups bucket.1 (← fromLevel keyOf below (level + 1) bucket.2)

/-- Groups rows into a number of levels, at least one. -/
def byLevels (keyOf : α → Nat → Except ε Value) (levels : Nat) (rows : List α) :
    Except ε (List (Group α)) :=
  fromLevel keyOf (levels - 1) 0 rows

end Grouping

end DataGrid
