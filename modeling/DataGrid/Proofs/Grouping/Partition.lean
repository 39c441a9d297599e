import DataGrid.Proofs.Grouping.Levels

/-!
# Groups partition their rows

`Grouping.Partition` says what a tree of groups over rows has to be: as deep as there are levels,
without empty groups, with right counts; every row in exactly one innermost group, as often as it
was given; the rows below a group are those with its keys, in their order; siblings stand in the
order of their first rows and carry the keys of these.

* `byLevels_partition`: grouping succeeds exactly if every row has a key at every level, and then
  gives such a tree.
-/

namespace DataGrid

namespace Subtree

variable {α : Type}

theorem leafRowsOf_cons (g : Group α) (rest : List (Group α)) :
    leafRowsOf (g :: rest) = leafRows g.items ++ leafRowsOf rest := by
  cases g
  rfl

/-- A row under a group is one of those under all groups. -/
theorem mem_leafRowsOf {gs : List (Group α)} {g : Group α} {row : α} (hg : g ∈ gs)
    (h : row ∈ leafRows g.items) : row ∈ leafRowsOf gs := by
  induction gs with
  | nil => cases hg
  | cons first rest ih =>
    rw [leafRowsOf_cons, List.mem_append]
    rcases List.mem_cons.1 hg with rfl | hg
    · exact .inl h
    · exact .inr (ih hg)

/-- What stands at a place stands under the tree. -/
theorem At.mem_leafRows {t u : Subtree α} {path : List Value} (h : At t path u) {row : α}
    (hrow : row ∈ leafRows u) : row ∈ leafRows t := by
  induction h with
  | here => exact hrow
  | under hg _ ih =>
    rw [leafRows]
    exact mem_leafRowsOf hg (ih hrow)

/-- Below a place stands what stands under its groups. -/
theorem At.concat {t : Subtree α} {path : List Value} {gs : List (Group α)}
    (h : At t path (.groups gs)) {g : Group α} (hg : g ∈ gs) : At t (path ++ [g.key]) g.items := by
  generalize hu : Subtree.groups gs = u at h
  induction h with
  | here =>
    subst hu
    exact .under hg (.here _)
  | under hg' _ ih => exact .under hg' (ih hu)

theorem leafRowsOf_map {β : Type} (f : β → Group α) (bs : List β) :
    leafRowsOf (bs.map f) = bs.flatMap fun b => leafRows (f b).items := by
  induction bs with
  | nil => rfl
  | cons b bs ih => rw [List.map_cons, leafRowsOf_cons, ih, List.flatMap_cons]

end Subtree

open Subtree

namespace Bucket

variable {κ α : Type} {same : κ → κ → Bool} (eqv : Equivalence fun k l => same k l = true)
include eqv

/-- Among rows with a property, the first rows of the first keys stand in the order of these. -/
theorem pairwise_findIdx_firsts (p : α → Bool) (f : α → κ) (rows : List α) :
    (firsts same ((rows.filter p).map f)).Pairwise fun k l =>
      rows.findIdx (fun row => p row && same k (f row))
        < rows.findIdx fun row => p row && same l (f row) := by
  induction rows with
  | nil => exact .nil
  | cons row rest ih =>
    cases hp : p row with
    | false =>
      rw [List.filter_cons_of_neg (by simp [hp])]
      exact ih.imp fun h => by simpa [List.findIdx_cons, hp] using h
    | true =>
      rw [List.filter_cons_of_pos hp, List.map_cons, firsts]
      refine List.pairwise_cons.2 ⟨fun l hl => ?_, (ih.filter _).imp_of_mem fun hk hl h => ?_⟩
      · have apart : same (f row) l = false := by simpa using (List.mem_filter.1 hl).2
        simp [List.findIdx_cons, hp, eqv.refl (f row), not_same_symm eqv apart]
      · have apart := not_same_symm eqv (by simpa using (List.mem_filter.1 hk).2)
        have apart' := not_same_symm eqv (by simpa using (List.mem_filter.1 hl).2)
        simpa [List.findIdx_cons, hp, apart, apart'] using h

/-- Among rows with a property, a first key is the key of the first row that has it. -/
theorem find?_of_mem_firsts (p : α → Bool) (f : α → κ) (rows : List α) {k : κ}
    (hk : k ∈ firsts same ((rows.filter p).map f)) :
    ∃ row, rows.find? (fun row => p row && same k (f row)) = some row ∧ f row = k := by
  induction rows with
  | nil => cases hk
  | cons row rest ih =>
    cases hp : p row with
    | false =>
      rw [List.filter_cons_of_neg (by simp [hp])] at hk
      simpa [List.find?_cons, hp] using ih hk
    | true =>
      rw [List.filter_cons_of_pos hp, List.map_cons, firsts] at hk
      rcases List.mem_cons.1 hk with rfl | hk
      · exact ⟨row, by simp [hp, eqv.refl (f row)], rfl⟩
      · obtain ⟨hk, apart⟩ := List.mem_filter.1 hk
        have apart : same k (f row) = false := not_same_symm eqv (by simpa using apart)
        simpa [List.find?_cons, hp, apart] using ih hk

end Bucket

namespace Grouping

variable {α ε : Type} {key : α → Nat → Value}

/-- What a tree of groups over rows is, given the key of every row at every level. -/
structure Partition (key : α → Nat → Value) (levels : Nat) (rows : List α)
    (groups : List (Group α)) : Prop where
  /-- groups stand above the last level -/
  inner : ∀ path t, At (.groups groups) path t → path.length < levels → ∃ gs, t = .groups gs
  /-- rows stand below it -/
  innermost : ∀ path t, At (.groups groups) path t → path.length = levels → ∃ rs, t = .rows rs
  /-- no path is longer -/
  depth : ∀ path t, At (.groups groups) path t → path.length ≤ levels
  /-- no group is empty -/
  nonempty : ∀ path gs, At (.groups groups) path (.groups gs) → ∀ g ∈ gs, g.items.size ≠ 0
  /-- the count of a group is the number of groups or rows right below it -/
  counted : ∀ path gs, At (.groups groups) path (.groups gs) →
    ∀ g ∈ gs, g.count = some g.items.size
  /-- every row stands in exactly one innermost group -/
  once : ∀ row ∈ rows,
    ∃! path, ∃ leaf, At (.groups groups) path (.rows leaf) ∧ row ∈ leaf
  /-- it stands there as often as it was given -/
  often : ∀ path leaf, At (.groups groups) path (.rows leaf) → ∀ row ∈ leaf,
    ∀ [BEq α] [LawfulBEq α], leaf.count row = rows.count row
  /-- an innermost group has the rows with its keys and those of the groups around it, in the order
  given -/
  leaf : ∀ path leaf, At (.groups groups) path (.rows leaf) → leaf = rows.filter (onPath key path)
  /-- so have all groups together the rows with their keys, up to the order -/
  beneath : ∀ path t, At (.groups groups) path t →
    (leafRows t).Perm (rows.filter (onPath key path))
  /-- no two siblings have the same key -/
  distinct : ∀ path gs, At (.groups groups) path (.groups gs) →
    (gs.map Group.key).Pairwise fun k l => sameKey k l = false
  /-- siblings stand in the order of their first rows -/
  ordered : ∀ path gs, At (.groups groups) path (.groups gs) →
    (gs.map fun g => rows.findIdx (onPath key (path ++ [g.key]))).Pairwise (· < ·)
  /-- a group carries the key of its first row -/
  carried : ∀ path gs, At (.groups groups) path (.groups gs) → ∀ g ∈ gs,
    ∃ row, rows.find? (onPath key (path ++ [g.key])) = some row ∧ key row path.length = g.key
  /-- the rows of all groups are as many as were given -/
  total : sumLeafRows groups = rows.length

/-! ### The tree of rows -/

/-- The keys of a tree are those of its first level. -/
theorem map_key_tree (below level : Nat) (rows : List α) :
    (tree key below level rows).map Group.key = keysAt key level rows := by
  cases below <;> simp [tree, Function.comp_def, Group.ofRows, Group.ofGroups, Group.key]

/-- The rows of all first keys are all rows. -/
theorem flatMap_withKey_perm (level : Nat) (rows : List α) :
    ((keysAt key level rows).flatMap fun k => withKey key level k rows).Perm rows := by
  have h := Bucket.flatMap_collect_perm sameKey
    (rows.map fun row => (key row level, row))
  rw [collect_keyed, List.flatMap_map, List.map_map] at h
  simpa [Function.comp_def] using h

/-- The tree of rows has these rows. -/
theorem leafRows_tree_perm (key : α → Nat → Value) (below level : Nat) (rows : List α) :
    (leafRowsOf (tree key below level rows)).Perm rows := by
  induction below generalizing level rows with
  | zero =>
    rw [tree, leafRowsOf_map]
    exact flatMap_withKey_perm level rows
  | succ below ih =>
    rw [tree, leafRowsOf_map]
    exact (List.Perm.flatMap_left _ fun k _ => ih (level + 1) (withKey key level k rows)).trans
      (flatMap_withKey_perm level rows)

/-- The groups of a tree are not empty and count what stands right below them. -/
theorem size_of_mem_tree {below level : Nat} {rows : List α} {g : Group α}
    (h : g ∈ tree key below level rows) : g.items.size ≠ 0 ∧ g.count = some g.items.size := by
  cases below with
  | zero =>
    obtain ⟨k, hk, rfl⟩ := List.mem_map.1 h
    exact ⟨fun hsize => withKey_ne_nil hk (List.eq_nil_of_length_eq_zero hsize), rfl⟩
  | succ below =>
    obtain ⟨k, hk, rfl⟩ := List.mem_map.1 h
    refine ⟨fun hsize => ?_, rfl⟩
    obtain ⟨row, hrow⟩ := List.exists_mem_of_ne_nil _ (withKey_ne_nil hk)
    obtain ⟨l, hl, -⟩ := exists_mem_keysAt key (level + 1) hrow
    have none : (tree key below (level + 1) (withKey key level k rows)).length = 0 := hsize
    rw [← List.length_map Group.key, map_key_tree] at none
    exact absurd hl (by simp [List.eq_nil_of_length_eq_zero none])

/-- Every row stands in a leaf, by induction on the levels below. -/
theorem exists_leaf_of_mem {below level : Nat} {rows : List α} {row : α} (h : row ∈ rows) :
    ∃ path leaf, At (.groups (tree key below level rows)) path (.rows leaf) ∧ row ∈ leaf := by
  induction below generalizing level rows with
  | zero =>
    obtain ⟨k, hk, hrow⟩ := exists_mem_keysAt key level h
    exact ⟨[k], withKey key level k rows, .under (List.mem_map_of_mem hk) (.here _), hrow⟩
  | succ below ih =>
    obtain ⟨k, hk, hrow⟩ := exists_mem_keysAt key level h
    obtain ⟨path, leaf, hat, hleaf⟩ := ih hrow
    exact ⟨k :: path, leaf, .under (List.mem_map_of_mem hk) hat, hleaf⟩

/-- Two innermost groups with a row in common stand at the same path. -/
theorem path_unique {below level : Nat} {rows a b : List α} {p q : List Value} {row : α}
    (hp : At (.groups (tree key below level rows)) p (.rows a)) (ha : row ∈ a)
    (hq : At (.groups (tree key below level rows)) q (.rows b)) (hb : row ∈ b) : p = q := by
  -- rows under two first keys of a level have both, which are one then
  induction below generalizing level rows p q with
  | zero =>
    cases hp with | under hg hp => cases hq with | under hg' hq =>
    obtain ⟨k, hk, rfl⟩ := List.mem_map.1 hg
    obtain ⟨l, hl, rfl⟩ := List.mem_map.1 hg'
    obtain rfl : k = l := eq_of_mem_keysAt hk hl (hp.mem_leafRows ha) (hq.mem_leafRows hb)
    cases hp
    cases hq
    rfl
  | succ below ih =>
    cases hp with | under hg hp => cases hq with | under hg' hq =>
    obtain ⟨k, hk, rfl⟩ := List.mem_map.1 hg
    obtain ⟨l, hl, rfl⟩ := List.mem_map.1 hg'
    have inRows : ∀ {k : Value},
        row ∈ leafRowsOf (tree key below (level + 1) (withKey key level k rows)) →
        row ∈ withKey key level k rows := (leafRows_tree_perm _ _ _ _).mem_iff.1
    obtain rfl : k = l :=
      eq_of_mem_keysAt hk hl (inRows (hp.mem_leafRows ha)) (inRows (hq.mem_leafRows hb))
    exact congrArg _ (ih hp hq)

/-! ### The partition -/

section Places

variable {below : Nat} {rows : List α} {path : List Value}

/-- What stands at a path of the whole tree. -/
theorem place_tree {t : Subtree α} (h : At (.groups (tree key below 0 rows)) path t) :
    (path.length ≤ below ∧ t = .groups (tree key (below - path.length) path.length
        (rows.filter (onPath key path))))
      ∨ (path.length = below + 1 ∧ t = .rows (rows.filter (onPath key path))) :=
  tree_at (by rwa [filter_onPath_nil])

/-- The groups at a path are the tree of the rows on it. -/
theorem groups_of_place {gs : List (Group α)}
    (h : At (.groups (tree key below 0 rows)) path (.groups gs)) :
    gs = tree key (below - path.length) path.length (rows.filter (onPath key path)) := by
  rcases place_tree h with ⟨-, h⟩ | ⟨-, h⟩
  · exact Subtree.groups.inj h
  · cases h

/-- The rows at a path are the rows on it, in their order. -/
theorem rows_of_place {leaf : List α} (h : At (.groups (tree key below 0 rows)) path (.rows leaf)) :
    leaf = rows.filter (onPath key path) := by
  rcases place_tree h with ⟨-, h⟩ | ⟨-, h⟩
  · cases h
  · exact Subtree.rows.inj h

end Places

theorem onPath_concat_eq (path : List Value) (k : Value) : onPath key (path ++ [k])
    = fun row : α => onPath key path row && sameKey k (key row path.length) :=
  funext fun row => onPath_concat path k row

/-- The groups below a path are in the order of their first rows. -/
theorem pairwise_findIdx_tree (below : Nat) (path : List Value) (rows : List α) :
    ((tree key below path.length (rows.filter (onPath key path))).map
      fun g => rows.findIdx (onPath key (path ++ [g.key]))).Pairwise (· < ·) := by
  have order := Bucket.pairwise_findIdx_firsts sameKey_equivalence (onPath key path)
    (key · path.length) rows
  rw [show (fun g : Group α => rows.findIdx (onPath key (path ++ [g.key])))
      = (fun k => rows.findIdx (onPath key (path ++ [k]))) ∘ Group.key from rfl,
    ← List.map_map, map_key_tree, List.pairwise_map]
  simpa only [onPath_concat_eq, keysAt] using order

/-- A group below a path carries the key of its first row. -/
theorem find?_of_mem_tree {below : Nat} {path : List Value} {rows : List α} {g : Group α}
    (hg : g ∈ tree key below path.length (rows.filter (onPath key path))) :
    ∃ row, rows.find? (onPath key (path ++ [g.key])) = some row ∧ key row path.length = g.key := by
  have hk : g.key ∈ keysAt key path.length (rows.filter (onPath key path)) := by
    rw [← map_key_tree]
    exact List.mem_map_of_mem hg
  rw [onPath_concat_eq]
  exact Bucket.find?_of_mem_firsts sameKey_equivalence (onPath key path) (key · path.length)
    rows hk

/-- The tree of rows partitions them by their keys. -/
theorem partition_tree (below : Nat) (rows : List α) :
    Partition key (below + 1) rows (tree key below 0 rows) := by
  constructor
  case inner =>
    intro path t h hlt
    rcases place_tree h with ⟨-, h⟩ | ⟨heq, -⟩
    · exact ⟨_, h⟩
    · omega
  case innermost =>
    intro path t h heq
    rcases place_tree h with ⟨hle, -⟩ | ⟨-, h⟩
    · omega
    · exact ⟨_, h⟩
  case depth =>
    intro path t h
    rcases place_tree h with ⟨hle, -⟩ | ⟨heq, -⟩ <;> omega
  case nonempty =>
    intro path gs h g hg
    obtain rfl := groups_of_place h
    exact (size_of_mem_tree hg).1
  case counted =>
    intro path gs h g hg
    obtain rfl := groups_of_place h
    exact (size_of_mem_tree hg).2
  case once =>
    intro row hrow
    obtain ⟨path, leaf, h, hleaf⟩ := exists_leaf_of_mem hrow
    exact ⟨path, ⟨leaf, h, hleaf⟩, fun q ⟨b, hq, hb⟩ => path_unique hq hb h hleaf⟩
  case often =>
    intro path leaf h row hrow _ _
    obtain rfl := rows_of_place h
    exact List.count_filter (List.mem_filter.1 hrow).2
  case leaf =>
    intro path leaf h
    exact rows_of_place h
  case beneath =>
    intro path t h
    rcases place_tree h with ⟨-, rfl⟩ | ⟨-, rfl⟩
    · exact leafRows_tree_perm _ _ _ _
    · exact .refl _
  case distinct =>
    intro path gs h
    obtain rfl := groups_of_place h
    rw [map_key_tree]
    exact Bucket.pairwise_firsts _ _
  case ordered =>
    intro path gs h
    obtain rfl := groups_of_place h
    exact pairwise_findIdx_tree _ _ _
  case carried =>
    intro path gs h g hg
    obtain rfl := groups_of_place h
    exact find?_of_mem_tree hg
  case total =>
    rw [sumLeafRows_eq_length]
    exact (leafRows_tree_perm _ _ _ _).length_eq

/-- Grouping succeeds exactly if every row has a key at every level, and it then partitions the
rows by these keys. -/
theorem byLevels_partition (keyOf : α → Nat → Except ε Value) {levels : Nat}
    (hlevels : 0 < levels) (rows : List α) :
    ((∃ groups, byLevels keyOf levels rows = .ok groups)
      ↔ ∀ row ∈ rows, ∀ level < levels, ∃ k, keyOf row level = .ok k)
    ∧ ∀ groups, byLevels keyOf levels rows = .ok groups → ∀ key : α → Nat → Value,
      (∀ row ∈ rows, ∀ level < levels, keyOf row level = .ok (key row level)) →
        Partition key levels rows groups := by
  refine ⟨⟨fun ⟨_, h⟩ => keys_of_byLevels hlevels h, fun h => ?_⟩, fun gs h key hkey => ?_⟩
  · -- the keys that are there, and any value where there is none
    let key : α → Nat → Value := fun row level => (keyOf row level).toOption.getD .null
    have found : ∀ row ∈ rows, ∀ level < levels, keyOf row level = .ok (key row level) := by
      intro row hrow level hlevel
      obtain ⟨k, hk⟩ := h row hrow level hlevel
      simp [key, hk, Except.toOption]
    exact ⟨_, byLevels_of_keys hlevels found⟩
  · rw [byLevels_of_keys hlevels hkey] at h
    cases h
    obtain ⟨below, rfl⟩ := Nat.exists_eq_add_of_lt hlevels
    simpa using partition_tree below rows

/-- Two levels over four rows: `1` and `1.0` share a group, which carries the key that came
first. -/
theorem byLevels_partition_two_levels :
    let keyOf : List Value → Nat → Except Unit Value := fun row level =>
      match row[level]? with
      | some k => .ok k
      | none => .error ()
    let a : List Value := [.int 1, .bool true]
    let b : List Value := [.float (Binary64.ofInt 1), .null]
    let c : List Value := [.int 2, .bool true]
    let groups := [
      Group.ofGroups (.int 1) [Group.ofRows (.bool true) [a, a], Group.ofRows .null [b]],
      Group.ofGroups (.int 2) [Group.ofRows (.bool true) [c]]]
    0 < 2 ∧ byLevels keyOf 2 [a, b, c, a] = .ok groups
      ∧ Partition (fun row level => row[level]?.getD .null) 2 [a, b, c, a] groups := by
  intro keyOf a b c groups
  have h : byLevels keyOf 2 [a, b, c, a] = .ok groups := by rfl
  refine ⟨by decide, h, (byLevels_partition keyOf (by decide) [a, b, c, a]).2 groups h _ ?_⟩
  intro row hrow level hlevel
  have keys : row = a ∨ row = b ∨ row = c ∨ row = a := by simpa using hrow
  obtain rfl | rfl : level = 0 ∨ level = 1 := by omega
  all_goals obtain rfl | rfl | rfl | rfl := keys <;> rfl

end Grouping

end DataGrid
