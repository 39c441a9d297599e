import DataGrid.Proofs.Grouping.Outline

/-!
# Innermost groups

`Subtree.leavesUnder` lists the innermost groups of a tree with the keys that lead to them. For the
groups of rows:

* an innermost group counts the rows that have its keys, and has keys that rows have
  (`Grouping.isLeaf_outlineAt`);
* every row has the keys of exactly one innermost group (`Grouping.countP_outlineAt`).

Summaries and the rows below innermost groups do not matter.
-/

namespace DataGrid

/-- An innermost group. -/
structure Leaf where
  /-- the keys that lead to it, outermost first -/
  path : List Value
  /-- its count -/
  count : Option Nat

namespace Subtree

variable {α β : Type}

mutual

/-- The innermost groups of what stands under a group with a path and a count. -/
def leaves (path : List Value) (count : Option Nat) : Subtree α → List Leaf
  | groups gs => leavesUnder path gs
  | rows _ | dropped => [⟨path, count⟩]

/-- The innermost groups of groups that stand under a path. -/
def leavesUnder (path : List Value) : List (Group α) → List Leaf
  | [] => []
  | .mk key items count _ :: rest => leaves (path ++ [key]) count items ++ leavesUnder path rest

end

/-- The leaves of groups are those of the first and those of the others. -/
theorem leavesUnder_cons (path : List Value) (g : Group α) (rest : List (Group α)) :
    leavesUnder path (g :: rest)
      = leaves (path ++ [g.key]) g.count g.items ++ leavesUnder path rest := by
  cases g
  rfl

theorem leavesUnder_map (path : List Value) (f : β → Group α) (bs : List β) :
    leavesUnder path (bs.map f)
      = bs.flatMap fun b => leaves (path ++ [(f b).key]) (f b).count (f b).items := by
  induction bs with
  | nil => rfl
  | cons b bs ih => rw [List.map_cons, leavesUnder_cons, ih, List.flatMap_cons]

mutual

/-- Other summaries change nothing in the leaves. -/
theorem leaves_resum (f : Option (List Value) → Option (List Value)) : (t : Subtree α) →
    (path : List Value) → (count : Option Nat) → leaves path count (t.resum f) = leaves path count t
  | groups gs, path, _ => leavesUnder_resumAll f gs path
  | rows _, _, _ | dropped, _, _ => rfl

/-- Summaries do not matter for the innermost groups. -/
theorem leavesUnder_resumAll (f : Option (List Value) → Option (List Value)) :
    (gs : List (Group α)) → (path : List Value) →
      leavesUnder path (resumAll f gs) = leavesUnder path gs
  | [], _ => rfl
  | .mk key items count summary :: rest, path => by
    rw [resumAll, leavesUnder, leavesUnder, leaves_resum f items, leavesUnder_resumAll f rest]

end

mutual

/-- Nor does dropping the rows. -/
theorem leaves_dropRows : (t : Subtree α) → (path : List Value) → (count : Option Nat) →
    leaves path count t.dropRows = leaves path count t
  | groups gs, path, _ => leavesUnder_dropRowsOf gs path
  | rows _, _, _ | dropped, _, _ => rfl

/-- The rows do not matter for the innermost groups. -/
theorem leavesUnder_dropRowsOf : (gs : List (Group α)) → (path : List Value) →
    leavesUnder path (dropRowsOf gs) = leavesUnder path gs
  | [], _ => rfl
  | .mk key items count summary :: rest, path => by
    rw [dropRowsOf, leavesUnder, leavesUnder, leaves_dropRows items, leavesUnder_dropRowsOf rest]

end

mutual

/-- A leaf stands on a path that goes on from that of the tree. -/
theorem prefix_of_leaves : (t : Subtree α) → {path : List Value} → {count : Option Nat} →
    ∀ leaf ∈ leaves path count t, path <+: leaf.path
  | groups gs, _, _ => prefix_of_leavesUnder gs
  | rows _, _, _ | dropped, _, _ => fun leaf h => by
    obtain rfl := List.mem_singleton.1 h
    exact List.prefix_refl _

/-- The path of an innermost group leads through the groups around it. -/
theorem prefix_of_leavesUnder : (gs : List (Group α)) → {path : List Value} →
    ∀ leaf ∈ leavesUnder path gs, path <+: leaf.path
  | [], _ => fun _ h => nomatch h
  | .mk key items count summary :: rest, path => by
    rw [leavesUnder, List.forall_mem_append]
    exact ⟨fun leaf h => (List.prefix_append _ _).trans (prefix_of_leaves items leaf h),
      prefix_of_leavesUnder rest⟩

end

end Subtree

open Subtree (leavesUnder leaves resumAll)

namespace Grouping

variable {α β : Type} {key : α → Nat → Value} {all : List α}

/-- What an innermost group of rows is, given the keys of the rows. -/
structure IsLeaf (key : α → Nat → Value) (all : List α) (levels : Nat) (leaf : Leaf) : Prop where
  /-- its path has a key for every level -/
  deep : leaf.path.length = levels
  /-- every key of its path is that of a row -/
  keys : ∀ level k, leaf.path[level]? = some k → ∃ row ∈ all, key row level = k
  /-- it counts the rows with its keys -/
  counted : leaf.count = some (all.filter (onPath key leaf.path)).length

/-- A row on a path is on every path that leads there. -/
theorem onPath_of_prefix {path path' : List Value} (h : path <+: path') {row : α}
    (hrow : onPath key path' row = true) : onPath key path row = true := by
  obtain ⟨rest, rfl⟩ := h
  rw [onPath, List.zipIdx_append, List.all_append, Bool.and_eq_true] at hrow
  exact hrow.1

variable (summary : List α → Option (List Value))

/-- The outline of the rows on a path. -/
abbrev outlineAt (key : α → Nat → Value) (summary : List α → Option (List Value)) (all : List α)
    (below : Nat) (path : List Value) : List (Group β) :=
  outline key List.length summary below path.length (all.filter (onPath key path))

/-- At the last level there is a leaf for each key. -/
theorem leaves_outlineAt_zero (path : List Value) :
    leavesUnder path (outlineAt key summary all 0 path : List (Group β))
      = (keysAt key path.length (all.filter (onPath key path))).map fun k =>
          ⟨path ++ [k], some (all.filter (onPath key (path ++ [k]))).length⟩ := by
  rw [outlineAt, outline, Subtree.leavesUnder_map, List.map_eq_flatMap]
  simp only [Group.key, Group.count, Group.items, leaves, withKey_filter_onPath]

/-- Above it, the leaves are those below each key. -/
theorem leaves_outlineAt_succ (below : Nat) (path : List Value) :
    leavesUnder path (outlineAt key summary all (below + 1) path : List (Group β))
      = (keysAt key path.length (all.filter (onPath key path))).flatMap fun k =>
          leavesUnder (path ++ [k])
            (outlineAt key summary all below (path ++ [k]) : List (Group β)) := by
  rw [outlineAt, outline, Subtree.leavesUnder_map]
  simp only [Group.key, Group.items, leaves, withKey_filter_onPath, List.length_append,
    List.length_singleton, outlineAt]

/-- Groups that differ from the tree of rows in summaries only have the innermost groups of the
outline. -/
theorem leaves_of_bare {gs : List (Group α)} {below : Nat}
    (bare : resumAll (fun _ => none) gs = resumAll (fun _ => none) (tree key below 0 all)) :
    leavesUnder [] gs
      = leavesUnder [] (outlineAt key (fun _ => none) all below [] : List (Group α)) := by
  have dropped : Subtree.dropRowsOf (resumAll (fun _ => none)
      (Subtree.dressAll (fun _ => none) (tree key below 0 all)))
      = outline key List.length (fun _ => none) below 0 all :=
    dropRowsOf_tree below 0 fun _ _ _ _ => rfl
  rw [Subtree.dressAll_none, ← bare] at dropped
  rw [outlineAt, filter_onPath_nil, List.length_nil, ← dropped, Subtree.leavesUnder_dropRowsOf,
    Subtree.leavesUnder_resumAll]

/-- A first key of the rows on a path goes on a path of keys of rows. -/
theorem keys_concat {path : List Value} {k : Value}
    (keys : ∀ level l, path[level]? = some l → ∃ row ∈ all, key row level = l)
    (hk : k ∈ keysAt key path.length (all.filter (onPath key path))) :
    ∀ level l, (path ++ [k])[level]? = some l → ∃ row ∈ all, key row level = l := by
  intro level l hl
  rcases Nat.lt_or_ge level path.length with above | last
  · rw [List.getElem?_append_left above] at hl
    exact keys level l hl
  · rw [List.getElem?_append_right last, List.getElem?_singleton] at hl
    split at hl
    next zero =>
      cases hl
      obtain ⟨row, hrow, hkey⟩ := List.mem_map.1 (Bucket.mem_of_mem_firsts _ hk)
      obtain rfl : level = path.length := by omega
      exact ⟨row, (List.mem_filter.1 hrow).1, hkey⟩
    next => cases hl

/-- An innermost group counts the rows with its keys, which are keys of rows. -/
theorem isLeaf_outlineAt (below : Nat) {path : List Value}
    (keys : ∀ level k, path[level]? = some k → ∃ row ∈ all, key row level = k) :
    ∀ leaf ∈ leavesUnder path (outlineAt key summary all below path : List (Group β)),
      IsLeaf key all (path.length + below + 1) leaf := by
  intro leaf hleaf
  -- on the levels below the path; a step down puts the key of a row on it
  induction below generalizing path with
  | zero =>
    rw [leaves_outlineAt_zero] at hleaf
    obtain ⟨k, hk, rfl⟩ := List.mem_map.1 hleaf
    exact ⟨List.length_append, keys_concat keys hk, rfl⟩
  | succ below ih =>
    rw [leaves_outlineAt_succ] at hleaf
    obtain ⟨k, hk, hleaf⟩ := List.mem_flatMap.1 hleaf
    obtain ⟨deep, keys, counted⟩ := ih (keys_concat keys hk) hleaf
    rw [List.length_append, List.length_singleton] at deep
    exact ⟨by omega, keys, counted⟩

/-- A row on a path has the keys of exactly one innermost group below it. -/
theorem countP_outlineAt (below : Nat) {path : List Value} {row : α} (hrow : row ∈ all)
    (on : onPath key path row = true) :
    (leavesUnder path (outlineAt key summary all below path : List (Group β))).countP
      (fun leaf => onPath key leaf.path row) = 1 := by
  have further (path : List Value) (on : onPath key path row = true) (k : Value) :
      onPath key (path ++ [k]) row = sameKey k (key row path.length) := by
    rw [onPath_concat, on, Bool.true_and]
  have once (path : List Value) (on : onPath key path row = true) :
      (keysAt key path.length (all.filter (onPath key path))).countP
        (sameKey · (key row path.length)) = 1 :=
    Bucket.countP_firsts sameKey_equivalence
      (List.mem_map_of_mem (f := (key · path.length)) (List.mem_filter.2 ⟨hrow, on⟩))
  induction below generalizing path with
  | zero =>
    rw [leaves_outlineAt_zero, List.countP_map]
    simp only [Function.comp_def, further path on]
    exact once path on
  | succ below ih =>
    rw [leaves_outlineAt_succ, List.countP_flatMap, ← once path on]
    generalize keysAt key path.length (all.filter (onPath key path)) = ks
    -- the row goes below the one key that it has; below the others no group is its own
    induction ks with
    | nil => rfl
    | cons k ks ihks =>
      rw [List.map_cons, List.sum_cons, ihks, List.countP_cons, Nat.add_comm, Function.comp]
      congr 1
      cases same : sameKey k (key row path.length) with
      | true => exact ih ((further path on k).trans same)
      | false =>
        rw [if_neg Bool.false_ne_true, List.countP_eq_zero]
        intro leaf hleaf hon
        have inside := onPath_of_prefix (Subtree.prefix_of_leavesUnder _ leaf hleaf) hon
        rw [further path on k, same] at inside
        cases inside

end Grouping

end DataGrid
