import DataGrid.Proofs.Bucket
import DataGrid.Proofs.Outcome
import DataGrid.Proofs.Value.Sameness

/-!
# The tree of rows with known keys

`Grouping.tree` is the tree that `Grouping.byLevels` builds when the key of every row at every level
is known: at each level the first keys, each with the rows that have it.

* Grouping succeeds exactly if every key is there (`keys_of_byLevels`), and then gives the tree
  (`byLevels_of_keys`).
* `Grouping.onPath` says that a row has the keys of a path, outermost first, and `Subtree.At` what
  stands at a path of a tree. What stands at a path of the tree of rows is the tree of the rows on
  that path (`tree_at`).
-/

namespace DataGrid

namespace Subtree

variable {α : Type}

/-- The number of groups or rows right below a node. -/
def size : Subtree α → Nat
  | groups gs => gs.length
  | rows rs => rs.length
  | dropped => 0

/-- What stands at a path of keys, outermost first. -/
inductive At : Subtree α → List Value → Subtree α → Prop where
  /-- the tree itself stands at the empty path -/
  | here (t : Subtree α) : At t [] t
  /-- the key of a group leads to what stands under it -/
  | under {gs : List (Group α)} {g : Group α} {path : List Value} {t : Subtree α}
    (h : g ∈ gs) (rest : At g.items path t) : At (.groups gs) (g.key :: path) t

end Subtree

namespace Grouping

variable {α ε : Type} (key : α → Nat → Value)

/-- The rows whose key at a level is grouped with `k`. -/
def withKey (level : Nat) (k : Value) (rows : List α) : List α :=
  rows.filter fun row => sameKey k (key row level)

/-- The first keys of rows at a level. -/
def keysAt (level : Nat) (rows : List α) : List Value :=
  Bucket.firsts sameKey (rows.map fun row => key row level)

/-- The tree of rows, with a number of levels below the one at hand. -/
def tree : Nat → Nat → List α → List (Group α)
  | 0, level, rows =>
    (keysAt key level rows).map fun k => Group.ofRows k (withKey key level k rows)
  | below + 1, level, rows =>
    (keysAt key level rows).map fun k =>
      Group.ofGroups k (tree below (level + 1) (withKey key level k rows))

/-- Whether a row has the keys of a path, outermost first. -/
def onPath (path : List Value) (row : α) : Bool :=
  path.zipIdx.all fun k => sameKey k.1 (key row k.2)

/-! ### Keys that are there -/

/-- Keying succeeds exactly if every row has a key, and pairs each with its row. -/
theorem keyed_eq_ok_iff {keyOf : α → Except ε Value} {rows : List α} {pairs : List (Value × α)} :
    keyed keyOf rows = .ok pairs
      ↔ List.Forall₂ (fun row pair => keyOf row = .ok pair.1 ∧ pair.2 = row) rows pairs := by
  induction rows generalizing pairs with
  | nil => simp [keyed, eq_comm]
  | cons row rest ih =>
    rw [keyed, List.forall₂_cons_left_iff]
    cases h : keyOf row with
    | error e => simp
    | ok k =>
      simp only [Outcome.map_eq_ok, ih, Except.ok.injEq, Prod.exists]
      constructor
      · rintro ⟨pairs, hpairs, rfl⟩
        exact ⟨k, row, pairs, ⟨rfl, rfl⟩, hpairs, rfl⟩
      · rintro ⟨k', row', pairs, ⟨rfl, rfl⟩, hpairs, rfl⟩
        exact ⟨pairs, hpairs, rfl⟩

theorem keyed_of_keys {keyOf : α → Except ε Value} {k : α → Value} {rows : List α}
    (h : ∀ row ∈ rows, keyOf row = .ok (k row)) :
    keyed keyOf rows = .ok (rows.map fun row => (k row, row)) := by
  rw [keyed_eq_ok_iff, List.forall₂_map_right_iff]
  exact List.forall₂_same.2 fun row hrow => ⟨h row hrow, rfl⟩

/-- Rows that are keyed have keys. -/
theorem keys_of_keyed {keyOf : α → Except ε Value} {rows : List α} {pairs : List (Value × α)}
    (h : keyed keyOf rows = .ok pairs) {row : α} (hrow : row ∈ rows) :
    ∃ k, keyOf row = .ok k := by
  induction keyed_eq_ok_iff.1 h with
  | nil => cases hrow
  | cons hpair _ ih =>
    rcases List.mem_cons.1 hrow with rfl | hrow
    · exact ⟨_, hpair.1⟩
    · exact ih (keyed_eq_ok_iff.2 ‹_›) hrow

/-- The buckets of rows by their keys at a level. -/
theorem collect_keyed (level : Nat) (rows : List α) :
    Bucket.collect sameKey (rows.map fun row => (key row level, row))
      = (keysAt key level rows).map fun k => (k, withKey key level k rows) := by
  rw [Bucket.collect_eq sameKey_equivalence, List.map_map]
  apply List.map_congr_left
  intro k _
  rw [Bucket.rowsOf, List.filter_map, List.map_map]
  simp [Function.comp_def, withKey]

/-! ### Rows with a key -/

variable {key}

/-- The rows of a key are those whose key is grouped with it. -/
theorem mem_withKey {level : Nat} {k : Value} {rows : List α} {row : α} :
    row ∈ withKey key level k rows ↔ row ∈ rows ∧ sameKey k (key row level) = true :=
  List.mem_filter

/-- Every row is with one of the keys of its level. -/
theorem exists_mem_keysAt (key : α → Nat → Value) (level : Nat) {rows : List α} {row : α}
    (h : row ∈ rows) :
    ∃ k ∈ keysAt key level rows, row ∈ withKey key level k rows := by
  obtain ⟨k, hk, hrow⟩ :=
    Bucket.exists_mem_firsts sameKey_equivalence (List.mem_map_of_mem (f := (key · level)) h)
  exact ⟨k, hk, mem_withKey.2 ⟨h, hrow⟩⟩

/-- A first key is the key of a row, which is then the first row with that key. -/
theorem withKey_ne_nil {level : Nat} {rows : List α} {k : Value}
    (h : k ∈ keysAt key level rows) : withKey key level k rows ≠ [] := by
  obtain ⟨row, hrow, rfl⟩ := List.mem_map.1 (Bucket.mem_of_mem_firsts _ h)
  exact List.ne_nil_of_mem (mem_withKey.2 ⟨hrow, sameKey_equivalence.refl _⟩)

/-- It is with no other, since keys that stand for groups are apart. -/
theorem eq_of_mem_keysAt {level : Nat} {rows : List α} {k l : Value} {row : α}
    (hk : k ∈ keysAt key level rows) (hl : l ∈ keysAt key level rows)
    (hrow : row ∈ withKey key level k rows) (hrow' : row ∈ withKey key level l rows) : k = l :=
  Bucket.eq_of_mem_firsts sameKey_equivalence hk hl
    (sameKey_equivalence.trans (mem_withKey.1 hrow).2
      (sameKey_equivalence.symm (mem_withKey.1 hrow').2))

/-! ### Grouping gives the tree -/

/-- If all keys are there, grouping gives the tree of the rows, by induction on the levels below. -/
theorem fromLevel_of_keys {keyOf : α → Nat → Except ε Value} {below level : Nat} {rows : List α}
    (h : ∀ row ∈ rows, ∀ l, level ≤ l → l ≤ level + below → keyOf row l = .ok (key row l)) :
    fromLevel keyOf below level rows = .ok (tree key below level rows) := by
  have here : keyed (keyOf · level) rows = .ok (rows.map fun row => (key row level, row)) :=
    keyed_of_keys fun row hrow => h row hrow level (Nat.le_refl _) (Nat.le_add_right _ _)
  -- a bucket is the rows with a key, whose keys further down are there as well
  induction below generalizing level rows with
  | zero =>
    rw [fromLevel, here]
    simp only [bind, Except.bind, pure, Except.pure, collect_keyed, List.map_map]
    rfl
  | succ below ih =>
    have deeper : ∀ k, ∀ row ∈ withKey key level k rows, ∀ l, level + 1 ≤ l →
        l ≤ level + 1 + below → keyOf row l = .ok (key row l) := fun k row hrow l low high =>
      h row (mem_withKey.1 hrow).1 l (by omega) (by omega)
    rw [fromLevel, here]
    simp only [bind, Except.bind, collect_keyed, List.mapM_map]
    apply Outcome.mapM_ok
    intro k _
    rw [Function.comp_apply, ih (deeper k) (keyed_of_keys fun row hrow =>
      deeper k row hrow _ (Nat.le_refl _) (Nat.le_add_right _ _))]
    rfl

/-- If grouping succeeds, every row has a key at every level. -/
theorem keys_of_fromLevel {keyOf : α → Nat → Except ε Value} {below level : Nat} {rows : List α}
    {groups : List (Group α)} (h : fromLevel keyOf below level rows = .ok groups) :
    ∀ row ∈ rows, ∀ l, level ≤ l → l ≤ level + below → ∃ k, keyOf row l = .ok k := by
  induction below generalizing level rows groups with
  | zero =>
    intro row hrow l low high
    obtain ⟨pairs, hpairs, -⟩ := Outcome.bind_eq_ok.1 h
    obtain rfl : l = level := by omega
    exact keys_of_keyed hpairs hrow
  | succ below ih =>
    intro row hrow l low high
    obtain ⟨pairs, hpairs, h⟩ := Outcome.bind_eq_ok.1 h
    rcases Nat.eq_or_lt_of_le low with rfl | low
    · exact keys_of_keyed hpairs hrow
    -- the row is in one of the buckets, which is grouped at the levels below
    obtain ⟨pair, hpair, rfl⟩ : ∃ pair ∈ pairs, pair.2 = row := by
      have same := keyed_eq_ok_iff.1 hpairs
      obtain ⟨i, hi, rfl⟩ := List.mem_iff_getElem.1 hrow
      have hlen := same.length_eq
      exact ⟨pairs.get ⟨i, hlen ▸ hi⟩, List.get_mem _ _, (same.get hi (hlen ▸ hi)).2⟩
    have hbucket := (Bucket.flatMap_collect_perm sameKey pairs).mem_iff.2
      (List.mem_map_of_mem (f := Prod.snd) hpair)
    obtain ⟨bucket, hmem, hin⟩ := List.mem_flatMap.1 hbucket
    obtain ⟨g, -, hg⟩ := Outcome.exists_of_mapM_eq_ok h hmem
    obtain ⟨inner, hinner, -⟩ := Outcome.bind_eq_ok.1 hg
    exact ih hinner _ hin l low (by omega)

/-! ### Grouping fails for want of a key -/

/-- Keying fails as a row does that has no key. -/
theorem keyed_eq_error {keyOf : α → Except ε Value} {rows : List α} {e : ε}
    (h : keyed keyOf rows = .error e) : ∃ row ∈ rows, keyOf row = .error e := by
  induction rows with
  | nil => cases h
  | cons row rest ih =>
    rw [keyed] at h
    split at h
    · obtain ⟨row', hrow', he⟩ := ih (Outcome.map_eq_error.1 h)
      exact ⟨row', List.mem_cons_of_mem row hrow', he⟩
    next he =>
      cases h
      exact ⟨row, List.mem_cons_self, he⟩

/-- The rows of buckets are rows that were collected. -/
theorem mem_of_mem_collect_keyed {keyOf : α → Except ε Value} {rows : List α}
    {pairs : List (Value × α)} (h : keyed keyOf rows = .ok pairs)
    {bucket : Value × List α} (hbucket : bucket ∈ Bucket.collect sameKey pairs) {row : α}
    (hrow : row ∈ bucket.2) : row ∈ rows := by
  have collected := (Bucket.flatMap_collect_perm sameKey pairs).mem_iff.1
    (List.mem_flatMap.2 ⟨bucket, hbucket, hrow⟩)
  obtain ⟨pair, hpair, rfl⟩ := List.mem_map.1 collected
  obtain ⟨i, hi, rfl⟩ := List.mem_iff_getElem.1 hpair
  have same := keyed_eq_ok_iff.1 h
  have hi' := same.length_eq ▸ hi
  have key : pairs[i].2 = rows[i] := (same.get hi' hi).2
  rw [key]
  exact List.getElem_mem hi'

/-- Grouping fails only as the key of a row at one of the levels does. -/
theorem fromLevel_eq_error {keyOf : α → Nat → Except ε Value} {below level : Nat} {rows : List α}
    {e : ε} (h : fromLevel keyOf below level rows = .error e) :
    ∃ row ∈ rows, ∃ l, level ≤ l ∧ l ≤ level + below ∧ keyOf row l = .error e := by
  induction below generalizing level rows with
  | zero =>
    rcases Outcome.bind_eq_error.1 h with h | ⟨pairs, -, h⟩
    · obtain ⟨row, hrow, he⟩ := keyed_eq_error h
      exact ⟨row, hrow, level, Nat.le_refl _, Nat.le_add_right _ _, he⟩
    · cases h
  | succ below ih =>
    rcases Outcome.bind_eq_error.1 h with h | ⟨pairs, hpairs, h⟩
    · obtain ⟨row, hrow, he⟩ := keyed_eq_error h
      exact ⟨row, hrow, level, Nat.le_refl _, Nat.le_add_right _ _, he⟩
    -- the row is in a bucket that fails at the levels below
    obtain ⟨before, bucket, after, split, -, h⟩ := Outcome.mapM_eq_error.1 h
    rcases Outcome.bind_eq_error.1 h with h | ⟨inner, -, h⟩
    · obtain ⟨row, hrow, l, low, high, he⟩ := ih h
      have hbucket : bucket ∈ Bucket.collect sameKey pairs :=
        split ▸ List.mem_append_right before List.mem_cons_self
      exact ⟨row, mem_of_mem_collect_keyed hpairs hbucket hrow, l, by omega, by omega, he⟩
    · cases h

/-- Grouping fails as a row does that has no key at some level. -/
theorem byLevels_eq_error {keyOf : α → Nat → Except ε Value} {levels : Nat} {rows : List α} {e : ε}
    (hlevels : 0 < levels) (h : byLevels keyOf levels rows = .error e) :
    ∃ row ∈ rows, ∃ level < levels, keyOf row level = .error e := by
  obtain ⟨row, hrow, level, -, high, he⟩ := fromLevel_eq_error h
  exact ⟨row, hrow, level, by omega, he⟩

/-- Rows that have all keys are grouped into their tree. -/
theorem byLevels_of_keys {keyOf : α → Nat → Except ε Value} {levels : Nat} {rows : List α}
    (hlevels : 0 < levels)
    (h : ∀ row ∈ rows, ∀ level < levels, keyOf row level = .ok (key row level)) :
    byLevels keyOf levels rows = .ok (tree key (levels - 1) 0 rows) :=
  fromLevel_of_keys fun row hrow level _ high => h row hrow level (by omega)

/-- Rows that are grouped have all keys. -/
theorem keys_of_byLevels {keyOf : α → Nat → Except ε Value} {levels : Nat} {rows : List α}
    {groups : List (Group α)} (hlevels : 0 < levels)
    (h : byLevels keyOf levels rows = .ok groups) :
    ∀ row ∈ rows, ∀ level < levels, ∃ k, keyOf row level = .ok k :=
  fun row hrow level hlevel =>
    keys_of_fromLevel h row hrow level (Nat.zero_le _) (by omega)

/-! ### Places in the tree -/

theorem onPath_nil (row : α) : onPath key [] row = true := rfl

/-- A row is on a longer path if it is on the path and its key is grouped with the last one. -/
theorem onPath_concat (path : List Value) (k : Value) (row : α) :
    onPath key (path ++ [k]) row
      = (onPath key path row && sameKey k (key row path.length)) := by
  simp [onPath, List.zipIdx_append]

theorem filter_onPath_nil (rows : List α) : rows.filter (onPath key []) = rows :=
  List.filter_eq_self.2 fun row _ => onPath_nil row

/-- The rows of a key among those on a path are those on the path that goes on with it. -/
theorem withKey_filter_onPath (path : List Value) (k : Value) (rows : List α) :
    withKey key path.length k (rows.filter (onPath key path))
      = rows.filter (onPath key (path ++ [k])) := by
  rw [withKey, List.filter_filter]
  apply List.filter_congr
  intro row _
  rw [onPath_concat, Bool.and_comm]

/-- What stands at a path of the tree of rows: the tree of the rows on that path, or these rows
below the last level. -/
theorem tree_at {rows : List α} {below : Nat} {above path : List Value} {t : Subtree α}
    (h : Subtree.At
      (.groups (tree key below above.length (rows.filter (onPath key above)))) path t) :
    (path.length ≤ below ∧ t = .groups (tree key (below - path.length) (above ++ path).length
        (rows.filter (onPath key (above ++ path)))))
      ∨ (path.length = below + 1 ∧ t = .rows (rows.filter (onPath key (above ++ path)))) := by
  -- a step down the path moves its key over to the keys above
  induction below generalizing above path t with
  | zero =>
    cases h with
    | here => exact .inl (by simp)
    | under hg rest =>
      obtain ⟨k, hk, rfl⟩ := List.mem_map.1 hg
      cases rest with
      | here => exact .inr ⟨rfl, congrArg Subtree.rows (withKey_filter_onPath above k rows)⟩
  | succ below ih =>
    cases h with
    | here => exact .inl (by simp)
    | @under _ g path t hg rest =>
      obtain ⟨k, hk, rfl⟩ := List.mem_map.1 hg
      have rest : Subtree.At (.groups (tree key below (above ++ [k]).length
          (rows.filter (onPath key (above ++ [k]))))) path t := by
        rw [← withKey_filter_onPath, List.length_append]
        exact rest
      rcases ih rest with ⟨short, rfl⟩ | ⟨full, rfl⟩
      · refine .inl ⟨Nat.succ_le_succ short, ?_⟩
        rw [List.append_assoc, List.singleton_append, List.length_cons, Nat.succ_sub_succ]
        rfl
      · refine .inr ⟨congrArg Nat.succ full, ?_⟩
        rw [List.append_assoc, List.singleton_append]
        rfl

end Grouping

end DataGrid
