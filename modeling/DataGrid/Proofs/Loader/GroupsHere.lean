import DataGrid.Proofs.Grouping.Outline
import DataGrid.Proofs.Loader.Outcomes
import DataGrid.Proofs.Store.Projecting

/-!
# Groups and totals of records

Over records that conform, with summaries that split, the groups that are formed of the records are
their outline once rows are dropped, and totals are the values of the summaries over all of them
(`Loader.summarized_groups`, `Loader.summarized_records`).
-/

namespace DataGrid

open Tally (tallied)
open Rollup (Measures readRecord)
open Grouping (outline tree Unordered)
open Store (Ready tupleAt keyOf keyIn)
open Subtree (leafRows dropRowsOf dressAll resumAll)

/-- The values of summaries over records, with zeros in place of null sums; none if none are asked
for. -/
def Summary.overAll (shape : Shape) (ss : List Summary) (records : List Value) :
    Option (List Value) :=
  if ss.isEmpty then none
  else some (SumZeros.filledAll shape true ss (ss.map (·.valueOver shape records)))

variable {shape : Shape} {grouping : List Grouping} {total group : List Summary}
variable {xs : List Value}

theorem Summary.map_valueOver_perm {ss : List Summary} {ys : List Value}
    (splits : ∀ s ∈ ss, s.Splits shape) (conform : ∀ x ∈ ys, shape.conforms x = true)
    (perm : xs.Perm ys) : ss.map (·.valueOver shape xs) = ss.map (·.valueOver shape ys) :=
  List.map_congr_left fun s hs => s.valueOver_perm (splits s hs) conform perm

namespace Loader

/-! ### Folding records -/

section Fold

variable {rollup : Rollup}

/-- The tallies of measures over records that conform are known. -/
theorem known_measures (htotal : List.Forall₂ (Measures shape) total rollup.total)
    (hgroup : List.Forall₂ (Measures shape) group rollup.group)
    (splits : ∀ s ∈ total ++ group, s.Splits shape) :
    Rollup.Known readRecord (fun r => shape.conforms r = true) (tallied readRecord) rollup := by
  rw [List.forall_mem_append] at splits
  exact ⟨fun m hm => (Rollup.steady_measures htotal splits.1 m hm).tallies,
    fun m hm => (Rollup.steady_measures hgroup splits.2 m hm).tallies⟩

/-- The summary of a group of records. -/
theorem summarize_measures (hgroup : List.Forall₂ (Measures shape) group rollup.group)
    (splits : ∀ s ∈ group, s.Splits shape) (sound : Sound shape xs) :
    (Rollup.summarize (tallied readRecord) rollup xs).map (SumZeros.filledAll shape true group)
      = Summary.overAll shape group xs := by
  rw [Rollup.summarize, Summary.overAll, Outcome.isEmpty_of_forall₂ hgroup,
    Rollup.finish_measures hgroup splits sound]
  split <;> rfl

/-- Summaries of sound records do not hang on their order. -/
theorem unordered_summarize (hgroup : List.Forall₂ (Measures shape) group rollup.group)
    (splits : ∀ s ∈ group, s.Splits shape) (sound : Sound shape xs) :
    Unordered xs (Rollup.summarize (tallied readRecord) rollup) := by
  intro part part' sub perm
  have sound := sound.sublist sub
  have sound' := sound.perm perm
  rw [Rollup.summarize, Rollup.summarize,
    Rollup.finish_measures hgroup splits sound,
    Rollup.finish_measures hgroup splits sound',
    Summary.map_valueOver_perm splits sound.conform perm]

/-- The totals of the rows of a tree. -/
theorem run_measures (htotal : List.Forall₂ (Measures shape) total rollup.total)
    (hgroup : List.Forall₂ (Measures shape) group rollup.group)
    (splits : ∀ s ∈ total ++ group, s.Splits shape) (sound : Sound shape xs) {t : Subtree Value}
    (rows : (leafRows t).Perm xs) :
    rollup.run readRecord t = .ok (t.dress (Rollup.summarize (tallied readRecord) rollup),
      if total.isEmpty then none else some (total.map (·.valueOver shape xs))) := by
  have sound' := sound.perm rows
  rw [Rollup.run_eq (known_measures htotal hgroup splits) sound'.conform]
  rw [List.forall_mem_append] at splits
  rw [Outcome.isEmpty_of_forall₂ htotal,
    Rollup.finish_measures htotal splits.1 sound',
    Summary.map_valueOver_perm splits.1 sound.conform rows]

end Fold

/-! ### Groups and totals -/

theorem summarized_of_ok {paths : List String} {keys : List Accessor}
    {build : List Accessor → Except ReadError (Subtree Value)} {rollup : Rollup}
    {data data' : Subtree Value} {totals : Option (List Value)}
    (hkeys : paths.mapM (Accessor.ofPath shape true) = .ok keys) (hdata : build keys = .ok data)
    (hrollup : Rollup.rollupOf shape true total group = .ok rollup)
    (hrun : rollup.run readRecord data = .ok (data', totals)) :
    summarized shape true total group paths build
      = .ok (data'.resum (Option.map (SumZeros.filledAll shape true group)),
          totals.map (SumZeros.filledAll shape true total)) := by
  simp only [summarized, hkeys, Except.mapError, bind, Except.bind, hdata, hrollup, hrun]
  rfl

theorem overAll_eq (total : List Summary) :
    Option.map (SumZeros.filledAll shape true total)
        (if total.isEmpty then none else some (total.map (·.valueOver shape xs)))
      = Summary.overAll shape total xs := by
  rw [Summary.overAll]
  cases total.isEmpty <;> rfl

/-- The totals of records. -/
theorem summarized_records (hrollup : ∃ rollup, Rollup.rollupOf shape true total [] = .ok rollup)
    (splits : ∀ s ∈ total, s.Splits shape) (sound : Sound shape xs) :
    summarized shape true total [] [] (fun _ => .ok (.rows xs))
      = .ok (.rows xs, Summary.overAll shape total xs) := by
  obtain ⟨rollup, hrollup⟩ := hrollup
  obtain ⟨htotal, hgroup⟩ := Rollup.rollupOf_eq_ok.1 hrollup
  have run := run_measures (Rollup.measures_eq_ok htotal) (Rollup.measures_eq_ok hgroup)
    (by simpa using splits) sound (t := .rows xs) (.refl _)
  rw [summarized_of_ok rfl rfl hrollup run, overAll_eq]
  rfl

/-- The key at a level is that of the tuple. -/
theorem keyAt_eq {keys : List Accessor} {record : Value} {tuple : List Value}
    (h : keys.mapM (·.read record) = .ok tuple) (level : Nat) :
    keyAt keys record level = .ok (keyIn tuple level) := by
  rw [keyAt, keyIn]
  induction Outcome.mapM_eq_ok.1 h generalizing level with
  | nil => rfl
  | cons hread hrest ih =>
    cases level with
    | zero => exact hread
    | succ level => exact ih (Outcome.mapM_eq_ok.2 hrest) level

theorem mapM_selector (grouping : List Grouping) (shape : Shape) :
    (grouping.map Grouping.selector).mapM (Accessor.ofPath shape true)
      = grouping.mapM fun g => Accessor.ofPath shape true g.selector := by
  rw [List.mapM_map]
  rfl

/-- The tree that is formed of records that conform. -/
theorem byLevels_keyAt {keys : List Accessor} (grouped : grouping ≠ [])
    (hkeys : grouping.mapM (fun g => Accessor.ofPath shape true g.selector) = .ok keys)
    (exact : ∀ g ∈ grouping, shape.PathIs FieldType.isExact g.selector)
    (conform : ∀ x ∈ xs, shape.conforms x = true) :
    Grouping.byLevels (keyAt keys) keys.length xs
      = .ok (tree (keyOf (tupleAt shape grouping)) (grouping.length - 1) 0 xs) := by
  rw [← (Outcome.mapM_eq_ok.1 hkeys).length_eq]
  exact Grouping.byLevels_of_keys (List.length_pos_of_ne_nil grouped) fun x hx level _ =>
    keyAt_eq (Store.mapM_read hkeys exact (conform x hx)) level

/-- The outline of records has the values of the summaries in its groups. -/
theorem outline_records {rollup : Rollup}
    (hgroup : List.Forall₂ (Measures shape) group rollup.group)
    (splits : ∀ s ∈ group, s.Splits shape) (sound : Sound shape xs) (key : Value → Nat → Value)
    (below : Nat) :
    (outline key List.length (fun rows => (Rollup.summarize (tallied readRecord) rollup rows).map
        (SumZeros.filledAll shape true group)) below 0 xs : List (Group Value))
      = outline key List.length (Summary.overAll shape group) below 0 xs := by
  -- the parts of the records conform as well
  refine Grouping.outline_congr (R := fun part part' => part = part' ∧ part.Sublist xs)
    ?_ ?_ ?_ ?_ _ _ ⟨rfl, .refl _⟩
  · rintro part _ level ⟨rfl, -⟩
    rfl
  · rintro part _ level k ⟨rfl, sub⟩
    exact ⟨rfl, List.filter_sublist.trans sub⟩
  · rintro part _ ⟨rfl, -⟩
    rfl
  · rintro part _ ⟨rfl, sub⟩
    exact summarize_measures hgroup splits (sound.sublist sub)

/-- The groups that are formed of records are their outline once rows are dropped. -/
theorem summarized_groups (grouped : grouping ≠ [])
    (hkeys : ∃ keys, grouping.mapM (fun g => Accessor.ofPath shape true g.selector) = .ok keys)
    (exact : ∀ g ∈ grouping, shape.PathIs FieldType.isExact g.selector)
    (hrollup : ∃ rollup, Rollup.rollupOf shape true total group = .ok rollup)
    (splits : ∀ s ∈ total ++ group, s.Splits shape) (sound : Sound shape xs) :
    ∃ gs, summarized shape true total group (grouping.map Grouping.selector) (fun accessors =>
          (Grouping.byLevels (keyAt accessors) accessors.length xs).map .groups)
        = .ok (.groups gs, Summary.overAll shape total xs)
      ∧ dropRowsOf gs = outline (keyOf (tupleAt shape grouping)) List.length
          (Summary.overAll shape group) (grouping.length - 1) 0 xs := by
  obtain ⟨keys, hkeys⟩ := hkeys
  obtain ⟨rollup, hrollup⟩ := hrollup
  obtain ⟨htotal, hgroup⟩ := Rollup.rollupOf_eq_ok.1 hrollup
  have htotal := Rollup.measures_eq_ok htotal
  have hgroup := Rollup.measures_eq_ok hgroup
  have formed := byLevels_keyAt grouped hkeys exact sound.conform
  have run := run_measures htotal hgroup splits sound
    (t := .groups (tree (keyOf (tupleAt shape grouping)) (grouping.length - 1) 0 xs))
    (Grouping.leafRows_tree_perm _ _ _ xs)
  refine ⟨resumAll (Option.map (SumZeros.filledAll shape true group))
    (dressAll (Rollup.summarize (tallied readRecord) rollup)
      (tree (keyOf (tupleAt shape grouping)) (grouping.length - 1) 0 xs)), ?_, ?_⟩
  · rw [summarized_of_ok ((mapM_selector grouping shape).trans hkeys) (by rw [formed]; rfl) hrollup
      run, overAll_eq]
    rfl
  · rw [List.forall_mem_append] at splits
    rw [Grouping.dropRowsOf_tree _ _ (unordered_summarize hgroup splits.2 sound)]
    exact outline_records hgroup splits.2 sound _ _

end Loader

end DataGrid
