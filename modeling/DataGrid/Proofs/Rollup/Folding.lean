import DataGrid.Projection.Basic
import DataGrid.Proofs.Rollup

/-!
# One walk and separate folds

A rollup folds every row once into all tallies that are open. It succeeds exactly if all measures
can be folded by themselves, each over all rows and over the rows of each group, and it gives what
these folds give (`Rollup.run_folds`).
-/

namespace DataGrid

namespace Subtree

variable {α : Type} {S : List α → Option (List Value) → Option (List Value) → Prop}

mutual

/-- The groups of a tree at every depth, each before those under it. -/
def allGroups : Subtree α → List (Group α)
  | groups gs => allGroupsOf gs
  | rows _ | dropped => []

/-- Groups and those under them. -/
def allGroupsOf : List (Group α) → List (Group α)
  | [] => []
  | .mk key items count summary :: rest =>
    .mk key items count summary :: (allGroups items ++ allGroupsOf rest)

end

mutual

/-- A tree can be summed if each of its groups can. -/
theorem exists_summed_iff : (t : Subtree α) →
    ((∃ t', t.Summed S t') ↔ ∀ g ∈ t.allGroups, ∃ summary, S (leafRows g.items) g.summary summary)
  | .groups gs => by
    rw [allGroups, ← exists_summedAll_iff gs]
    exact ⟨fun ⟨_, .groups h⟩ => ⟨_, h⟩, fun ⟨_, h⟩ => ⟨_, .groups h⟩⟩
  | .rows rs => ⟨fun _ _ h => (nomatch h), fun _ => ⟨_, .rows rs⟩⟩
  | .dropped => ⟨fun _ _ h => (nomatch h), fun _ => ⟨_, .dropped⟩⟩

/-- Groups can be given summaries exactly if each can, wherever it stands. -/
theorem exists_summedAll_iff : (gs : List (Group α)) →
    ((∃ gs', SummedAll S gs gs')
      ↔ ∀ g ∈ allGroupsOf gs, ∃ summary, S (leafRows g.items) g.summary summary)
  | [] => ⟨fun _ _ h => (nomatch h), fun _ => ⟨_, .nil⟩⟩
  | .mk key items count summary :: rest => by
    rw [allGroupsOf, List.forall_mem_cons, List.forall_mem_append, ← exists_summed_iff items,
      ← exists_summedAll_iff rest]
    constructor
    · rintro ⟨_, h⟩
      cases h with
      | cons under here after => exact ⟨⟨_, here⟩, ⟨_, under⟩, ⟨_, after⟩⟩
    · rintro ⟨⟨_, here⟩, ⟨_, under⟩, ⟨_, after⟩⟩
      exact ⟨_, .cons under here after⟩

end

end Subtree

open Subtree (leafRows Summed)
open DataGrid.Measure (Gives)

variable {α : Type} {read : Source → α → Except ReadError Value}

/-- Measures give values over rows if each has one. -/
theorem Measure.exists_gives_iff {ms : List Measure} {rows : List α}
    {otherwise : Option (List Value)} :
    (∃ values?, Gives read ms rows otherwise values?)
      ↔ ∀ m ∈ ms, ∃ v, m.fold read rows = .ok v := by
  constructor
  · rintro ⟨_, gives⟩ m hm
    obtain ⟨ts, hts⟩ := gives.exists_tallied
    obtain ⟨v, -, hv⟩ := Outcome.exists_of_mapM_eq_ok
      (Outcome.mapM_eq_ok.2 (forall₂_fold_iff.2 ⟨ts, hts, rfl⟩)) hm
    exact ⟨v, hv⟩
  · intro h
    obtain ⟨values, hvalues⟩ := Outcome.exists_mapM_eq_ok h
    obtain ⟨ts, hts, -⟩ := forall₂_fold_iff.1 (Outcome.mapM_eq_ok.1 hvalues)
    exact ⟨_, hts.gives otherwise⟩

namespace Rollup

/-- A rollup succeeds exactly if every measure of the totals can be folded by itself over all rows,
and every measure of groups over the rows of each group. Then it gives the values of these folds:
the totals, if any are asked for, and in place of the summaries of groups, if any are asked for;
all else of the tree stays. -/
theorem run_folds (read : Source → α → Except ReadError Value) (r : Rollup) (t : Subtree α) :
    ((∃ result, r.run read t = .ok result) ↔
      (∀ m ∈ r.total, ∃ v, m.fold read (leafRows t) = .ok v)
        ∧ ∀ g ∈ t.allGroups, ∀ m ∈ r.group, ∃ v, m.fold read (leafRows g.items) = .ok v)
    ∧ ∀ t' totals, r.run read t = .ok (t', totals) ↔
        t.Summed (Gives read r.group) t' ∧ Gives read r.total (leafRows t) none totals := by
  have groups : (∃ t', t.Summed (Gives read r.group) t')
      ↔ ∀ g ∈ t.allGroups, ∀ m ∈ r.group, ∃ v, m.fold read (leafRows g.items) = .ok v := by
    simp only [Subtree.exists_summed_iff, Measure.exists_gives_iff]
  refine ⟨?_, fun _ _ => run_eq_ok_iff⟩
  have total : (∃ totals, Gives read r.total (leafRows t) none totals)
      ↔ ∀ m ∈ r.total, ∃ v, m.fold read (leafRows t) = .ok v := Measure.exists_gives_iff
  rw [← groups, ← total]
  constructor
  · rintro ⟨⟨t', totals⟩, h⟩
    obtain ⟨summed, gives⟩ := run_eq_ok_iff.1 h
    exact ⟨⟨totals, gives⟩, t', summed⟩
  · rintro ⟨⟨totals, gives⟩, t', summed⟩
    exact ⟨(t', totals), run_eq_ok_iff.2 ⟨summed, gives⟩⟩

/-- Rows and groups without rows may stand side by side, at different depths. -/
theorem run_folds_mixed_depths :
    let sum := Measure.of .sum (some (.position 0))
    let last := Measure.of .max (some (.position 1))
    let rows : List Row := [⟨[.int 2, .string "x"]⟩, ⟨[.null, .string "y"]⟩]
    let tree (a b c d : Option (List Value)) : Subtree Row := .groups [
      .mk (.string "a") (.groups [.mk (.int 1) (.rows rows) (some 2) b,
        .mk (.int 2) .dropped (some 5) c]) (some 2) a,
      .mk (.string "b") (.rows [⟨[.int 5, .null]⟩]) (some 1) d]
    let t := tree none none none (some [.null])
    let t' := tree (some [.int 2, .string "y"]) (some [.int 2, .string "y"])
      (some [.null, .null]) (some [.int 5, .null])
    let r : Rollup := ⟨[sum, .of .count none], [sum, last]⟩
    ((∀ m ∈ r.total, ∃ v, m.fold Row.read (leafRows t) = .ok v)
      ∧ ∀ g ∈ t.allGroups, ∀ m ∈ r.group, ∃ v, m.fold Row.read (leafRows g.items) = .ok v)
    ∧ t.Summed (Gives Row.read r.group) t'
    ∧ Gives Row.read r.total (leafRows t) none (some [.int 7, .int 3]) := by
  intro sum last rows tree t t' r
  have h : r.run Row.read t = .ok (t', some [.int 7, .int 3]) := rfl
  obtain ⟨succeeds, gives⟩ := run_folds Row.read r t
  exact ⟨succeeds.1 ⟨_, h⟩, (gives t' _).1 h⟩

end Rollup

end DataGrid
