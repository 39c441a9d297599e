import DataGrid.Loader
import DataGrid.Proofs.Grouping.Partition
import DataGrid.Proofs.Group.Summaries
import Mathlib.Algebra.Order.BigOperators.Group.List
import Mathlib.Algebra.Order.Ring.Int
import Mathlib.Algebra.Order.Ring.Nat

/-!
# Groups without their rows

`Grouping.outline` is the tree of rows as it is shown when the innermost groups are collapsed: what
is left of rows is a count and a summary. Both ways to a collapsed tree give an outline:

* dropping the rows of a tree with summaries (`dropRowsOf_tree`);
* collapsing a tree of flat rows, each of which stands for a number of records (`collapseAll_tree`).
-/

namespace DataGrid

namespace Group

variable {α : Type}

/-- The group with other summaries. -/
def resum (f : Option (List Value) → Option (List Value)) (g : Group α) : Group α :=
  .mk g.key (g.items.resum f) g.count (f g.summary)

/-- The group with summaries made of rows. -/
def dress (f : List α → Option (List Value)) (g : Group α) : Group α :=
  .mk g.key (g.items.dress f) g.count ((f g.items.leafRows).or g.summary)

/-- The group without the rows of innermost groups. -/
def dropRows (g : Group α) : Group α := .mk g.key g.items.dropRows g.count g.summary

end Group

namespace Subtree

variable {α : Type}

theorem resumAll_eq_map (f : Option (List Value) → Option (List Value)) (gs : List (Group α)) :
    resumAll f gs = gs.map (Group.resum f) := by
  induction gs with
  | nil => rfl
  | cons g rest ih =>
    cases g
    exact congrArg _ ih

theorem dressAll_eq_map (f : List α → Option (List Value)) (gs : List (Group α)) :
    dressAll f gs = gs.map (Group.dress f) := by
  induction gs with
  | nil => rfl
  | cons g rest ih =>
    cases g
    exact congrArg _ ih

theorem dropRowsOf_eq_map (gs : List (Group α)) : dropRowsOf gs = gs.map Group.dropRows := by
  induction gs with
  | nil => rfl
  | cons g rest ih =>
    cases g
    exact congrArg _ ih

end Subtree

open Subtree (leafRows leafRowsOf resumAll resumAll_eq_map dressAll dressAll_eq_map dropRowsOf
  dropRowsOf_eq_map)

/-- A group of flat rows as a group of records that are not shown. -/
def Loader.collapseGroup (countPosition : Nat) (g : Group Row) :
    Except ReadError (Group Value) := do
  let (items, count) ← collapse countPosition g.count g.items
  return .mk g.key items count g.summary

theorem Loader.collapseAll_eq_mapM (countPosition : Nat) (gs : List (Group Row)) :
    collapse.collapseAll countPosition gs = gs.mapM (collapseGroup countPosition) := by
  induction gs with
  | nil => rfl
  | cons g rest ih =>
    cases g
    rw [collapse.collapseAll, List.mapM_cons, ih, collapseGroup]
    simp only [bind_assoc, pure_bind, Group.key, Group.items, Group.count, Group.summary]

/-- A row that holds a number of records stands for as many. -/
theorem Loader.rowCountOf_of_get {row : Row} {countPosition n : Nat} (fits : Integer.Fits (n : Int))
    (h : row.get countPosition = .ok (.int (Int64.ofInt n))) :
    rowCountOf countPosition row = .ok n := by
  rw [rowCountOf, h]
  show Except.ok (Int64.ofInt _).toInt.toNat = _
  rw [Integer.toInt_ofInt_of_fits fits, Int.toNat_natCast]

/-- The sum over rows is what their counts add up to, as far as a word holds it. -/
theorem Loader.alike_sumRowCounts {countPosition : Nat} (rows : List Row) :
    Outcome.Alike (fun n counts => n = counts.sum % UInt64.size) (sumRowCounts countPosition rows)
      (rows.mapM (rowCountOf countPosition)) := by
  have grow : ∀ m < UInt64.size,
      Outcome.Alike (fun n counts => n = (m + counts.sum) % UInt64.size)
        (rows.foldlM (fun n row => return (n + (← rowCountOf countPosition row)) % UInt64.size) m)
        (rows.mapM (rowCountOf countPosition)) := by
    induction rows with
    | nil => exact fun m small => .ok (Nat.mod_eq_of_lt small).symm
    | cons row rest ih =>
      intro m _
      rw [List.foldlM_cons, List.mapM_cons]
      cases rowCountOf countPosition row with
      | error e => exact .error e
      | ok n =>
        show Outcome.Alike _ (rest.foldlM _ ((m + n) % UInt64.size)) _
        rw [← bind_pure (rest.foldlM _ ((m + n) % UInt64.size))]
        refine (ih _ (Nat.mod_lt _ (by decide))).bind fun sum counts h => .ok ?_
        rw [h, List.sum_cons, Nat.mod_add_mod, Nat.add_assoc]
  have whole := grow 0 (by decide)
  simp only [Nat.zero_add] at whole
  exact whole

/-- Rows whose counts add up to what a word holds stand for as many records. -/
theorem Loader.sumRowCounts_eq {countPosition : Nat} {records : Row → Nat} {rows : List Row}
    (h : ∀ row ∈ rows, rowCountOf countPosition row = .ok (records row))
    (fits : (rows.map records).sum < UInt64.size) :
    sumRowCounts countPosition rows = .ok (rows.map records).sum := by
  have alike : Outcome.Alike _ (sumRowCounts countPosition rows) _ := alike_sumRowCounts rows
  rw [Outcome.mapM_ok h] at alike
  generalize sumRowCounts countPosition rows = sum at alike ⊢
  cases alike with
  | ok same => rw [same, Nat.mod_eq_of_lt fits]

namespace Grouping

variable {α β : Type}

/-- The tree of rows without the rows, given how rows are counted and summarized. -/
def outline (key : α → Nat → Value) (count : List α → Nat)
    (summary : List α → Option (List Value)) : Nat → Nat → List α → List (Group β)
  | 0, level, rows => (keysAt key level rows).map fun k =>
    .mk k .dropped (some (count (withKey key level k rows))) (summary (withKey key level k rows))
  | below + 1, level, rows => (keysAt key level rows).map fun k =>
    let inner := outline key count summary below (level + 1) (withKey key level k rows)
    .mk k (.groups inner) (some inner.length) (summary (withKey key level k rows))

variable {key : α → Nat → Value} {f : List α → Option (List Value)}
variable {g : Option (List Value) → Option (List Value)}

/-- Summaries of parts of rows that do not depend on the order of the part. -/
def Unordered (rows : List α) (f : List α → Option (List Value)) : Prop :=
  ∀ part part', part.Sublist rows → part'.Perm part → f part' = f part

/-- What does not hang on the order of rows does not hang on that of the rows of a key. -/
theorem Unordered.withKey {rows : List α} (hf : Unordered rows f) (key : α → Nat → Value)
    (level : Nat) (k : Value) : Unordered (withKey key level k rows) f :=
  fun part part' sub perm => hf part part' (sub.trans List.filter_sublist) perm

/-- A tree has a group for each key of its first level. -/
theorem length_tree (below level : Nat) (rows : List α) :
    (tree key below level rows).length = (keysAt key level rows).length := by
  rw [← map_key_tree, List.length_map]

/-- So has an outline. -/
theorem length_outline (count : List α → Nat) (summary : List α → Option (List Value))
    (below level : Nat) (rows : List α) :
    (outline key count summary below level rows : List (Group β)).length
      = (keysAt key level rows).length := by
  cases below <;> rw [outline, List.length_map]

/-- A tree with summaries whose rows are dropped is the outline of its rows. -/
theorem dropRowsOf_tree (below level : Nat) {rows : List α} (hf : Unordered rows f) :
    dropRowsOf (resumAll g (dressAll f (tree key below level rows)))
      = outline key List.length (fun rows => g (f rows)) below level rows := by
  rw [dressAll_eq_map, resumAll_eq_map, dropRowsOf_eq_map, List.map_map, List.map_map]
  induction below generalizing level rows with
  | zero =>
    rw [tree, outline, List.map_map]
    apply List.map_congr_left
    intro k hk
    simp [Group.dropRows, Group.resum, Group.dress, Group.ofRows, Group.key, Group.items,
      Group.count, Group.summary, Subtree.dress, Subtree.resum, Subtree.dropRows, leafRows]
  | succ below ih =>
    rw [tree, outline, List.map_map]
    apply List.map_congr_left
    intro k hk
    -- the summary was formed of the rows of the tree below, which are these in another order
    have same := hf.withKey key level k _ _ (.refl _)
      (leafRows_tree_perm key below (level + 1) _)
    have under := ih (level + 1) (hf.withKey key level k)
    rw [← List.map_map, ← List.map_map, ← dressAll_eq_map, ← resumAll_eq_map,
      ← dropRowsOf_eq_map] at under
    simp [Group.dropRows, Group.resum, Group.dress, Group.ofGroups, Group.key, Group.items,
      Group.count, Group.summary, Subtree.dress, Subtree.resum, Subtree.dropRows, leafRows, under,
      length_tree, length_outline, same]

/-- A part of rows comes to no more than the rows. -/
theorem sum_withKey_le (key : α → Nat → Value) (level : Nat) (k : Value) (rows : List α)
    (records : α → Nat) : ((withKey key level k rows).map records).sum ≤ (rows.map records).sum :=
  (List.filter_sublist.map records).sum_le_sum fun _ _ => Nat.zero_le _

/-- A tree of flat rows with summaries that is collapsed is the outline of the rows, in which every
row counts for the records that it stands for, if a word holds their number. -/
theorem collapseAll_tree {key : Row → Nat → Value} {f : List Row → Option (List Value)}
    {countPosition : Nat} {records : Row → Nat} (below level : Nat) {rows : List Row}
    (hf : Unordered rows f)
    (hrows : ∀ row ∈ rows, Loader.rowCountOf countPosition row = .ok (records row))
    (fits : (rows.map records).sum < UInt64.size) :
    Loader.collapse.collapseAll countPosition
        (resumAll g (dressAll f (tree key below level rows)))
      = .ok (outline key (fun rows => (rows.map records).sum) (fun rows => g (f rows))
          below level rows) := by
  have part : ∀ level k, ∀ row ∈ withKey key level k rows,
      Loader.rowCountOf countPosition row = .ok (records row) :=
    fun level k row hrow => hrows row (mem_withKey.1 hrow).1
  have partFits : ∀ level k, ((withKey key level k rows).map records).sum < UInt64.size :=
    fun level k => Nat.lt_of_le_of_lt (sum_withKey_le key level k rows records) fits
  rw [dressAll_eq_map, resumAll_eq_map, Loader.collapseAll_eq_mapM]
  induction below generalizing level rows with
  | zero =>
    rw [tree, outline]
    simp only [List.map_map, List.mapM_map]
    apply Outcome.mapM_ok
    intro k hk
    simp [Loader.collapseGroup, Group.resum, Group.dress, Group.ofRows, Group.key, Group.items,
      Group.count, Group.summary, Subtree.dress, Subtree.resum, Loader.collapse, leafRows,
      Loader.sumRowCounts_eq (part level k) (partFits level k), bind, Except.bind, pure,
        Except.pure]
  | succ below ih =>
    rw [tree, outline]
    simp only [List.map_map, List.mapM_map]
    apply Outcome.mapM_ok
    intro k hk
    have same := hf.withKey key level k _ _ (.refl _)
      (leafRows_tree_perm key below (level + 1) _)
    have under := ih (level + 1) (hf.withKey key level k) (part level k) (partFits level k)
      (fun level' k' row hrow => part level k row (mem_withKey.1 hrow).1)
      fun level' k' => Nat.lt_of_le_of_lt (sum_withKey_le key level' k' _ records)
        (partFits level k)
    rw [← dressAll_eq_map, ← resumAll_eq_map, ← Loader.collapseAll_eq_mapM] at under
    simp [Loader.collapseGroup, Group.resum, Group.dress, Group.ofGroups, Group.key, Group.items,
      Group.count, Group.summary, Subtree.dress, Subtree.resum, Loader.collapse, leafRows, under,
      length_tree, length_outline, same, bind, Except.bind, pure, Except.pure]

/-- Rows of two kinds have one outline if they have the same keys, and so have their parts with a
key, and if they come to the same counts and summaries. -/
theorem outline_congr {key : α → Nat → Value} {key' : β → Nat → Value} {γ : Type}
    {count : List α → Nat} {count' : List β → Nat} {summary : List α → Option (List Value)}
    {summary' : List β → Option (List Value)} {R : List α → List β → Prop}
    (keys : ∀ xs ys level, R xs ys → keysAt key level xs = keysAt key' level ys)
    (part : ∀ xs ys level k, R xs ys → R (withKey key level k xs) (withKey key' level k ys))
    (counts : ∀ xs ys, R xs ys → count xs = count' ys)
    (summaries : ∀ xs ys, R xs ys → summary xs = summary' ys)
    (below level : Nat) {xs : List α} {ys : List β} (h : R xs ys) :
    (outline key count summary below level xs : List (Group γ))
      = outline key' count' summary' below level ys := by
  induction below generalizing level xs ys with
  | zero =>
    rw [outline, outline, keys xs ys level h]
    apply List.map_congr_left
    intro k _
    have under := part xs ys level k h
    rw [counts _ _ under, summaries _ _ under]
  | succ below ih =>
    rw [outline, outline, keys xs ys level h]
    apply List.map_congr_left
    intro k _
    have under := part xs ys level k h
    simp only [ih (level + 1) under, summaries _ _ under]

end Grouping

end DataGrid
