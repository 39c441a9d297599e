import DataGrid.Proofs.Bucket.Classes
import DataGrid.Proofs.Grouping.Leaves

/-!
# Innermost groups with their rows

`Subtree.placesUnder` lists the innermost groups of a tree with the keys that lead to them and with
their rows. In a tree of rows whose keys make up a tuple, these are the classes of the rows by their
tuples (`Grouping.classesOf_tree`): grouping level by level comes to the same as collecting once by
all keys.
-/

namespace DataGrid

namespace Subtree

variable {α β : Type}

mutual

/-- The innermost groups of what stands under a path of keys, with their rows. -/
def places (path : List Value) : Subtree α → List (List Value × List α)
  | groups gs => placesUnder path gs
  | rows rs => [(path, rs)]
  | dropped => [(path, [])]

/-- The innermost groups of groups that stand under a path of keys, with their rows. -/
def placesUnder (path : List Value) : List (Group α) → List (List Value × List α)
  | [] => []
  | .mk key items _ _ :: rest => places (path ++ [key]) items ++ placesUnder path rest

end

/-- The places under groups are those under the first and those under the others. -/
theorem placesUnder_cons (path : List Value) (g : Group α) (rest : List (Group α)) :
    placesUnder path (g :: rest) = places (path ++ [g.key]) g.items ++ placesUnder path rest := by
  cases g
  rfl

theorem placesUnder_map (path : List Value) (f : β → Group α) (bs : List β) :
    placesUnder path (bs.map f) = bs.flatMap fun b => places (path ++ [(f b).key]) (f b).items := by
  induction bs with
  | nil => rfl
  | cons b bs ih => rw [List.map_cons, placesUnder_cons, ih, List.flatMap_cons]

mutual

/-- Places and leaves stand on the same paths. -/
theorem map_fst_places : (t : Subtree α) → (path : List Value) → (count : Option Nat) →
    (places path t).map Prod.fst = (leaves path count t).map Leaf.path
  | groups gs, path, _ => map_fst_placesUnder gs path
  | rows _, _, _ | dropped, _, _ => rfl

/-- The keys that lead to the innermost groups. -/
theorem map_fst_placesUnder : (gs : List (Group α)) → (path : List Value) →
    (placesUnder path gs).map Prod.fst = (leavesUnder path gs).map Leaf.path
  | [], _ => rfl
  | .mk key items count _ :: rest, path => by
    rw [placesUnder, leavesUnder, List.map_append, List.map_append,
      map_fst_places items (path ++ [key]) count, map_fst_placesUnder rest path]

end

end Subtree

open Subtree (places placesUnder leavesUnder)
open Store (sameTuple sameTuple_equivalence)

namespace Grouping

variable {α : Type} {key : α → Nat → Value} {all : List α}

/-- What an innermost group of rows is, with its rows. -/
structure IsPlace (key : α → Nat → Value) (all : List α) (levels : Nat)
    (place : List Value × List α) : Prop where
  /-- its path has a key for every level -/
  deep : place.1.length = levels
  /-- it has the rows on its path -/
  members : place.2 = all.filter (onPath key place.1)
  /-- it is not empty -/
  nonempty : place.2 ≠ []

/-- The tree of the rows on a path. -/
abbrev treeAt (key : α → Nat → Value) (all : List α) (below : Nat) (path : List Value) :
    List (Group α) :=
  tree key below path.length (all.filter (onPath key path))

/-- At the last level there is a place for each key, with its rows. -/
theorem places_treeAt_zero (path : List Value) :
    placesUnder path (treeAt key all 0 path)
      = (keysAt key path.length (all.filter (onPath key path))).map fun k =>
          (path ++ [k], all.filter (onPath key (path ++ [k]))) := by
  rw [treeAt, tree, Subtree.placesUnder_map, List.map_eq_flatMap]
  simp only [Group.ofRows, Group.key, Group.items, places, withKey_filter_onPath]

/-- Above it, the places are those below each key. -/
theorem places_treeAt_succ (below : Nat) (path : List Value) :
    placesUnder path (treeAt key all (below + 1) path)
      = (keysAt key path.length (all.filter (onPath key path))).flatMap fun k =>
          placesUnder (path ++ [k]) (treeAt key all below (path ++ [k])) := by
  rw [treeAt, tree, Subtree.placesUnder_map]
  simp only [Group.ofGroups, Group.key, Group.items, places, withKey_filter_onPath,
    List.length_append, List.length_singleton, treeAt]

/-- An innermost group has the rows on its path. -/
theorem isPlace_treeAt (below : Nat) {path : List Value} :
    ∀ place ∈ placesUnder path (treeAt key all below path),
      IsPlace key all (path.length + below + 1) place := by
  intro place hplace
  -- on the levels below the path; the last one puts the key of a row on it
  induction below generalizing path with
  | zero =>
    rw [places_treeAt_zero] at hplace
    obtain ⟨k, hk, rfl⟩ := List.mem_map.1 hplace
    refine ⟨List.length_append, rfl, ?_⟩
    rw [← withKey_filter_onPath]
    exact withKey_ne_nil hk
  | succ below ih =>
    rw [places_treeAt_succ] at hplace
    obtain ⟨k, -, hplace⟩ := List.mem_flatMap.1 hplace
    obtain ⟨deep, members, nonempty⟩ := ih hplace
    rw [List.length_append, List.length_singleton] at deep
    exact ⟨by omega, members, nonempty⟩

/-- A row is on the path of exactly one innermost group. -/
theorem countP_places (below : Nat) {row : α} (hrow : row ∈ all) :
    (placesUnder [] (tree key below 0 all)).countP (fun place => onPath key place.1 row) = 1 := by
  have paths := congrArg (List.countP fun path => onPath key path row)
    (Subtree.map_fst_placesUnder (tree key below 0 all) [])
  rw [leaves_of_bare rfl, List.countP_map, List.countP_map] at paths
  exact paths.trans (countP_outlineAt _ below hrow (onPath_nil row))

/-- The innermost groups of rows are the classes of the rows by their tuples, if the rows on a path
are those whose tuple is the same. -/
theorem classesOf_tree {tuple : α → List Value} {below : Nat}
    (same : ∀ path : List Value, path.length = below + 1 → ∀ row ∈ all,
      onPath key path row = sameTuple path (tuple row)) :
    Bucket.ClassesOf sameTuple tuple all (placesUnder [] (tree key below 0 all)) := by
  have isPlace : ∀ place ∈ placesUnder [] (tree key below 0 all),
      IsPlace key all (below + 1) place := by
    have places : ∀ place ∈ placesUnder [] (treeAt key all below []),
        IsPlace key all (0 + below + 1) place := isPlace_treeAt below
    rwa [treeAt, filter_onPath_nil, Nat.zero_add] at places
  constructor
  case apart =>
    -- a row of two innermost groups with the same keys would be on the paths of both
    rw [List.pairwise_map, List.pairwise_iff_forall_sublist]
    intro place place' both
    by_contra alike
    obtain ⟨hplace, hplace'⟩ : place ∈ _ ∧ place' ∈ _ := by simpa using both.subset
    obtain ⟨row, hrow⟩ := List.exists_mem_of_ne_nil _ (isPlace place hplace).nonempty
    rw [(isPlace place hplace).members, List.mem_filter] at hrow
    obtain ⟨hrow, on⟩ := hrow
    have on' : onPath key place'.1 row = true := by
      rw [same _ (isPlace place hplace).deep row hrow] at on
      rw [same _ (isPlace place' hplace').deep row hrow]
      exact sameTuple_equivalence.trans
        (sameTuple_equivalence.symm (Bool.not_eq_false _ ▸ alike)) on
    have twice := both.countP_le (p := fun place => onPath key place.1 row)
    rw [countP_places below hrow] at twice
    simp [on, on'] at twice
  case members =>
    intro place hplace
    rw [(isPlace place hplace).members]
    exact List.filter_congr (same _ (isPlace place hplace).deep)
  case nonempty => exact fun place hplace => (isPlace place hplace).nonempty
  case whole =>
    intro row hrow
    have some : 0 < (placesUnder [] (tree key below 0 all)).countP
        fun place => onPath key place.1 row := by
      rw [countP_places below hrow]
      exact Nat.one_pos
    obtain ⟨place, hplace, on⟩ := List.countP_pos_iff.1 some
    exact ⟨place, hplace, same _ (isPlace place hplace).deep row hrow ▸ on⟩

end Grouping

end DataGrid
