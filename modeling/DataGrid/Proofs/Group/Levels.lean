import DataGrid.Loader
import DataGrid.Proofs.Group.Summaries
import DataGrid.Proofs.Grouping.Outline

/-!
# Trees with a number of levels

`Subtree.Levelled` says that every branch of a tree goes through the same number of groups, down to
rows or to what is left of them, and that every group has a count and a summary of a given form.
Rows are grouped into such a tree, and whatever a loader does to a tree afterwards keeps its levels.
-/

namespace DataGrid

namespace Subtree

variable {α : Type}

/-- Every branch goes through a number of groups and ends in rows, or in dropped rows if the
innermost groups are collapsed; every group has a count and a summary with a property. -/
def Levelled (summary : Option (List Value) → Prop) (collapsed : Bool) : Nat → Subtree α → Prop
  | 0, rows _ => collapsed = false
  | 0, dropped => collapsed = true
  | levels + 1, groups gs =>
    ∀ g ∈ gs, g.count.isSome = true ∧ summary g.summary ∧ Levelled summary collapsed levels g.items
  | _, _ => False

variable {P Q : Option (List Value) → Prop} {collapsed : Bool} {levels : Nat}

/-- A tree with a level is made of groups. -/
theorem Levelled.exists_groups {t : Subtree α} (h : Levelled P collapsed (levels + 1) t) :
    ∃ gs, t = groups gs := by
  cases t with
  | groups gs => exact ⟨gs, rfl⟩
  | rows _ | dropped => cases h

/-- Fewer groups at the outermost level. -/
theorem Levelled.subset {gs gs' : List (Group α)}
    (h : Levelled P collapsed (levels + 1) (groups gs)) (sub : gs' ⊆ gs) :
    Levelled P collapsed (levels + 1) (groups gs') :=
  fun g hg => h g (sub hg)

variable {S : List α → Option (List Value) → Option (List Value) → Prop}

/-- A group with another summary stands for the one at its place. -/
theorem SummedAll.exists_of_mem {gs gs' : List (Group α)} (h : SummedAll S gs gs') {g' : Group α}
    (hg' : g' ∈ gs') : ∃ g ∈ gs, g.count = g'.count ∧ S (leafRows g.items) g.summary g'.summary
      ∧ g.items.Summed S g'.items := by
  induction gs generalizing gs' with
  | nil =>
    cases h
    cases hg'
  | cons g gs ih =>
    cases h with
    | cons under here after =>
      rcases List.mem_cons.1 hg' with rfl | hg'
      · exact ⟨_, List.mem_cons_self, rfl, here, under⟩
      · obtain ⟨g, hg, h⟩ := ih after hg'
        exact ⟨g, List.mem_cons_of_mem _ hg, h⟩

/-- Other summaries on the groups that measures walk over. -/
theorem Levelled.summed (hS : ∀ rows summary summary',
    P summary → S rows summary summary' → Q summary')
    {t t' : Subtree α} (h : Levelled P collapsed levels t) (summed : t.Summed S t') :
    Levelled Q collapsed levels t' := by
  induction levels generalizing t t' with
  | zero =>
    cases summed with
    | groups _ => cases h
    | rows _ | dropped => exact h
  | succ levels ih =>
    cases summed with
    | rows _ | dropped => cases h
    | groups summed =>
      intro g' hg'
      obtain ⟨g, hg, counts, here, under⟩ := summed.exists_of_mem hg'
      obtain ⟨counted, summary, levelled⟩ := h g hg
      exact ⟨counts ▸ counted, hS _ _ _ summary here, ih levelled under⟩

theorem Levelled.resum {f : Option (List Value) → Option (List Value)}
    (hf : ∀ summary, P summary → Q (f summary)) {t : Subtree α}
    (h : Levelled P collapsed levels t) : Levelled Q collapsed levels (t.resum f) := by
  induction levels generalizing t with
  | zero =>
    cases t with
    | groups _ => cases h
    | rows _ | dropped => exact h
  | succ levels ih =>
    obtain ⟨gs, rfl⟩ := h.exists_groups
    intro g' hg'
    rw [resumAll_eq_map] at hg'
    obtain ⟨g, hg, rfl⟩ := List.mem_map.1 hg'
    obtain ⟨counted, summary, under⟩ := h g hg
    exact ⟨counted, hf _ summary, ih under⟩

theorem Levelled.dropRows {t : Subtree α} (h : Levelled P false levels t) :
    Levelled P true levels t.dropRows := by
  induction levels generalizing t with
  | zero =>
    cases t with
    | groups _ | dropped => cases h
    | rows _ => rfl
  | succ levels ih =>
    obtain ⟨gs, rfl⟩ := h.exists_groups
    intro g' hg'
    rw [dropRowsOf_eq_map] at hg'
    obtain ⟨g, hg, rfl⟩ := List.mem_map.1 hg'
    obtain ⟨counted, summary, under⟩ := h g hg
    exact ⟨counted, summary, ih under⟩

end Subtree

open Subtree (Levelled)

variable {P : Option (List Value) → Prop} {levels : Nat}

/-- Flat rows that are collapsed leave a count on the group above them. -/
theorem Loader.levelled_collapse {countPosition : Nat} {count : Option Nat} {t : Subtree Row}
    {t' : Subtree Value} {count' : Option Nat} (h : Levelled P false levels t)
    (counted : count.isSome = true) (run : collapse countPosition count t = .ok (t', count')) :
    Levelled P true levels t' ∧ count'.isSome = true := by
  induction levels generalizing count t t' count' with
  | zero =>
    cases t with
    | groups _ | dropped => cases h
    | rows rs =>
      obtain ⟨n, -, run⟩ := Outcome.bind_eq_ok.1 run
      cases run
      exact ⟨rfl, rfl⟩
  | succ levels ih =>
    obtain ⟨gs, rfl⟩ := h.exists_groups
    rw [collapse, Outcome.bind_eq_ok] at run
    obtain ⟨gs', hgs, run⟩ := run
    cases run
    refine ⟨fun g' hg' => ?_, counted⟩
    rw [collapseAll_eq_mapM] at hgs
    obtain ⟨g, hg, hcollapse⟩ := Outcome.exists_of_mem_of_mapM_eq_ok hgs hg'
    obtain ⟨⟨items, n⟩, hitems, hcollapse⟩ := Outcome.bind_eq_ok.1 hcollapse
    cases hcollapse
    obtain ⟨some, summary, under⟩ := h g hg
    obtain ⟨under, counted⟩ := ih under some hitems
    exact ⟨counted, summary, under⟩

theorem Loader.levelled_collapseAll {countPosition : Nat} {gs : List (Group Row)}
    {gs' : List (Group Value)} (h : Levelled P false (levels + 1) (.groups gs))
    (run : collapse.collapseAll countPosition gs = .ok gs') :
    Levelled P true (levels + 1) (.groups gs') := by
  have whole : collapse countPosition (some 0) (.groups gs) = .ok (.groups gs', some 0) := by
    rw [collapse, run]
    rfl
  exact (levelled_collapse h rfl whole).1

namespace Grouping

variable {α ε : Type} {keyOf : α → Nat → Except ε Value}

/-- Rows are grouped into as many levels as are asked for; no group has a summary so far. -/
theorem levelled_fromLevel {below level : Nat} {rows : List α} {gs : List (Group α)}
    (h : fromLevel keyOf below level rows = .ok gs) :
    Levelled (· = none) false (below + 1) (.groups gs) := by
  induction below generalizing level rows gs with
  | zero =>
    obtain ⟨pairs, -, h⟩ := Outcome.bind_eq_ok.1 h
    cases h
    intro g hg
    obtain ⟨bucket, -, rfl⟩ := List.mem_map.1 hg
    exact ⟨rfl, rfl, rfl⟩
  | succ below ih =>
    obtain ⟨pairs, -, h⟩ := Outcome.bind_eq_ok.1 h
    intro g hg
    obtain ⟨bucket, -, hbucket⟩ := Outcome.exists_of_mem_of_mapM_eq_ok h hg
    obtain ⟨inner, hinner, hbucket⟩ := Outcome.bind_eq_ok.1 hbucket
    cases hbucket
    exact ⟨rfl, rfl, ih hinner⟩

theorem levelled_byLevels {rows : List α} {gs : List (Group α)} (hlevels : 0 < levels)
    (h : byLevels keyOf levels rows = .ok gs) :
    Levelled (· = none) false levels (.groups gs) := by
  obtain ⟨below, rfl⟩ := Nat.exists_eq_succ_of_ne_zero hlevels.ne'
  exact levelled_fromLevel h

end Grouping

end DataGrid
