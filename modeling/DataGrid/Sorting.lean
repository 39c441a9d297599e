import DataGrid.Accessor.Resolver

/-!
# Sorting records

* A `Sorting` is one level: a selector and a direction.
* `Sorting.arrange` sorts by a three-way comparison. It inserts one element after another from the
  end, so elements that come out level keep their order.
* `Sorter.sort` sorts records by keys that it reads first. Nulls come first, and a descending level
  is turned, nulls included. If a key cannot be read, no record is left.
-/

namespace DataGrid

/-- One level of sorting. -/
structure Sorting where
  /-- the path of the keys -/
  selector : String
  /-- whether greater keys come first -/
  desc : Bool
  deriving DecidableEq

namespace Sorting

/-- An ascending level. -/
def on (selector : String) : Sorting := ⟨selector, false⟩

/-- The level with greater keys first. -/
def descending (s : Sorting) : Sorting := { s with desc := true }

section Arrange

variable {α : Type} (cmp : α → α → Ordering)

/-- Puts an element into a sorted list that is kept backwards: behind all that it is less than. -/
def insertBack (x : α) : List α → List α
  | [] => [x]
  | y :: rest => if cmp x y = .lt then y :: insertBack x rest else x :: y :: rest

/-- Sorts a list. -/
def arrange (xs : List α) : List α :=
  (xs.foldl (fun sorted x => insertBack cmp x sorted) []).reverse

theorem insertBack_perm (x : α) (xs : List α) : (insertBack cmp x xs).Perm (x :: xs) := by
  induction xs with
  | nil => exact .refl _
  | cons y rest ih =>
    unfold insertBack
    split
    · exact (ih.cons y).trans (.swap x y rest)
    · exact .refl _

end Arrange

/-- The comparison of two keys level by level: the first level that tells them apart decides. -/
def compareKeys : List Bool → List Value → List Value → Ordering
  | desc :: levels, a :: as, b :: bs =>
    let o := a.order b
    let o := if desc then o.swap else o
    if o = .eq then compareKeys levels as bs else o
  | _, _, _ => .eq

end Sorting

/-- Levels of sorting whose selectors are resolved. -/
structure Sorter where
  /-- the accessor of each level, and whether the level descends -/
  keys : List (Accessor × Bool)

namespace Sorter

/-- Resolves levels of sorting. -/
def make (sort : List Sorting) : Resolving Sorter := do
  return ⟨← sort.mapM fun s => return (← Resolver.resolve s.selector, s.desc)⟩

variable (s : Sorter)

/-- Whether there is no level. -/
def isEmpty : Bool := s.keys.isEmpty

/-- The key of a record. -/
def keyOf (record : Value) : Except ReadError (List Value) := s.keys.mapM fun k => k.1.read record

/-- Records with their keys. -/
def keyed (records : List Value) : Except ReadError (List (List Value × Value)) :=
  records.mapM fun record => return (← s.keyOf record, record)

/-- The comparison of two keys. -/
def compare (a b : List Value) : Ordering := Sorting.compareKeys (s.keys.map Prod.snd) a b

/-- What sorting leaves behind. -/
structure Outcome where
  /-- the records afterwards -/
  records : List Value
  /-- why a key could not be read -/
  error : Option ReadError

/-- Sorts records. Fewer than two records are left as they are, and so are all if there is no
level. -/
def sort (records : List Value) : Outcome :=
  if s.isEmpty || decide (records.length < 2) then ⟨records, none⟩
  else
    match s.keyed records with
    | .ok pairs => ⟨(Sorting.arrange (fun a b => s.compare a.1 b.1) pairs).map Prod.snd, none⟩
    | .error e => ⟨[], some e⟩

end Sorter

end DataGrid
