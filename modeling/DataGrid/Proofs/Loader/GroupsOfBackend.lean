import DataGrid.Proofs.Loader.GroupsHere

/-!
# Groups and totals of flat rows

The flat rows of a projection over records that conform, with summaries that split, give the outline
of the records and the values of the summaries over all of them, as the records themselves do
(`Loader.regrouped_groups`, `Loader.regrouped_records`). The sums over the records of a row have to
stay within a word.
-/

namespace DataGrid

open Tally (tallied)
open Grouping (outline tree Unordered)
open Projection (planOf)
open Store (Ready Plans Covers Stands tupleAt keyOf keyIn classOf orderedTuples flatRow flatRows)
open Subtree (leafRows dressAll resumAll)

variable {shape : Shape} {grouping : List Grouping} {total group : List Summary}
variable {records xs : List Value}

namespace Store

variable {tuple : Value → List Value}

/-- The records of all tuples are the records. -/
theorem orderedTuples_perm {keyless : Bool} (empty : keyless = true → ∀ r ∈ records, tuple r = []) :
    ((orderedTuples grouping keyless tuple records).flatMap (classOf tuple records)).Perm
      records := by
  have whole : Stands tuple (fun _ => ⟨[]⟩) records records _ := ⟨rfl, fun _ _ => .refl _⟩
  refine ((Sorting.arrange_perm _ _).flatMap_right _).trans ?_
  cases keyless with
  | false => exact whole.flatMap_perm
  | true =>
    have all : classOf tuple records [] = records := List.filter_eq_self.2 fun r hr => by
      rw [empty rfl r hr]
      rfl
    simp [tuplesOf, all]

/-- If the sums over the records of every tuple of the records fit, those of any tuple do. -/
theorem sumFits_classOf {s : Summary}
    (fits : ∀ r ∈ records, s.SumFits shape (classOf tuple records (tuple r))) (t : List Value) :
    s.SumFits shape (classOf tuple records t) := by
  cases h : classOf tuple records t with
  | nil =>
    intro _
    exact (⟨by decide, by decide⟩ : Integer.Fits 0)
  | cons r rest =>
    obtain ⟨hr, same⟩ := List.mem_filter.1 (h ▸ List.mem_cons_self : r ∈ classOf tuple records t)
    have class_eq : classOf tuple records t = classOf tuple records (tuple r) := by
      apply List.filter_congr
      intro u _
      exact Bucket.same_congr_left sameTuple_equivalence same (tuple u)
    exact h ▸ class_eq ▸ fits r hr

end Store

namespace Loader

section Fold

/-- Images in another order are the images of a list in another order. -/
theorem exists_map_of_perm {α β : Type} {f : α → β} {as : List α} {bs : List β}
    (h : bs.Perm (as.map f)) : ∃ us : List α, bs = us.map f ∧ us.Perm as :=
  (congrFun (congrFun (List.eq_map_comp_perm f) bs) as).mpr h

variable {plan : Projection} {tuple : Value → List Value} {ts : List (List Value)}

/-- What a plan needs of flat rows: its summaries read their columns, and sums fit. -/
structure Foldable (shape : Shape) (total group : List Summary) (plan : Projection)
    (tuple : Value → List Value) (records : List Value) : Prop where
  /-- the totals, with the number of all records -/
  totals : List.Forall₂ (Plans plan.columns) (total ++ [Summary.rows]) plan.total
  /-- the summaries of groups -/
  summaries : List.Forall₂ (Plans plan.columns) group plan.group
  /-- the summaries split -/
  splits : ∀ s ∈ (total ++ [Summary.rows]) ++ group, s.Splits shape
  /-- the sums over the records of a row fit -/
  fits : ∀ s ∈ (total ++ [Summary.rows]) ++ group, ∀ t,
    s.SumFits shape (classOf tuple records t)

variable (foldable : Foldable shape total group plan tuple records)
include foldable

/-- The tallies of a plan over flat rows are known. -/
theorem known_plan (ts : List (List Value)) :
    Rollup.Known Row.read (· ∈ ts.map (flatRow shape plan.columns tuple records))
      (tallied Row.read) plan.rollup := by
  obtain ⟨htotal, hgroup, splits, fits⟩ := foldable
  rw [List.forall_mem_append] at splits fits
  exact ⟨fun m hm =>
      (Store.steady_plans htotal splits.1 (fun s hs t _ => fits.1 s hs t) m hm).tallies,
    fun m hm => (Store.steady_plans hgroup splits.2 (fun s hs t _ => fits.2 s hs t) m hm).tallies⟩

/-- The summary of a group of flat rows is that of their records. -/
theorem summarize_plan (covers : Covers shape tuple records ts xs) :
    (Rollup.summarize (tallied Row.read) plan.rollup
        (ts.map (flatRow shape plan.columns tuple records))).map
        (SumZeros.filledAll shape true group) = Summary.overAll shape group xs := by
  obtain ⟨-, hgroup, splits, fits⟩ := foldable
  rw [List.forall_mem_append] at splits fits
  rw [Rollup.summarize, Projection.rollup, Summary.overAll, List.isEmpty_map,
    Outcome.isEmpty_of_forall₂ hgroup,
    Store.finish_plans hgroup splits.2 covers fun s hs t _ => fits.2 s hs t]
  split <;> rfl

/-- Summaries of flat rows do not hang on their order. -/
theorem unordered_plan (covers : Covers shape tuple records ts xs) :
    Unordered (ts.map (flatRow shape plan.columns tuple records))
      (Rollup.summarize (tallied Row.read) plan.rollup) := by
  obtain ⟨-, hgroup, splits, fits⟩ := foldable
  rw [List.forall_mem_append] at splits fits
  intro part part' sub perm
  obtain ⟨us, husub, rfl⟩ := List.sublist_map_iff.1 sub
  obtain ⟨us', rfl, hperm⟩ := exists_map_of_perm perm
  have covers := covers.sublist husub
  rw [Rollup.summarize, Rollup.summarize, Projection.rollup,
    Store.finish_plans hgroup splits.2 covers fun s hs t _ => fits.2 s hs t,
    Store.finish_plans hgroup splits.2 (covers.of_perm hperm) fun s hs t _ => fits.2 s hs t]

/-- The totals of a tree of flat rows are those of their records, and end in their number. -/
theorem run_plan (covers : Covers shape tuple records ts xs) {t : Subtree Row}
    (rows : (leafRows t).Perm (ts.map (flatRow shape plan.columns tuple records))) :
    plan.rollup.run Row.read t
      = .ok (t.dress (Rollup.summarize (tallied Row.read) plan.rollup),
          some (total.map (·.valueOver shape xs) ++ [Tally.ofLength xs.length])) := by
  have known := known_plan foldable ts
  obtain ⟨htotal, -, splits, fits⟩ := foldable
  rw [List.forall_mem_append] at splits fits
  obtain ⟨us, hus, perm⟩ := exists_map_of_perm rows
  have some : plan.total.isEmpty = false := by
    rw [Outcome.isEmpty_of_forall₂ htotal]
    simp
  rw [Rollup.run_eq known fun row hrow => rows.mem_iff.1 hrow, hus]
  simp only [Projection.rollup, List.isEmpty_map, some, Bool.false_eq_true, if_false]
  rw [Store.finish_plans htotal splits.1 (covers.of_perm perm) fun s hs t _ => fits.1 s hs t,
    List.map_append]
  rfl

end Fold

/-! ### Groups and totals -/

theorem filter_overAll (total : List Summary) :
    (some (SumZeros.filledAll shape true total (total.map (·.valueOver shape xs)))).filter
      (!·.isEmpty)
      = Summary.overAll shape total xs := by
  cases total <;> rfl

/-- The plan of splitting summaries can be folded over flat rows. -/
theorem foldable_planOf {tuple : Value → List Value} (levels : Nat)
    (splits : ∀ s ∈ total ++ group, s.Splits shape)
    (fits : ∀ s ∈ total ++ group, ∀ r ∈ records, s.SumFits shape
      (classOf tuple records (tuple r))) :
    Foldable shape total group (planOf levels total group) tuple records := by
  have both {P : Summary → Prop} (rows : P .rows) (h : ∀ s ∈ total ++ group, P s) :
      ∀ s ∈ (total ++ [Summary.rows]) ++ group, P s := by
    intro s hs
    simp only [List.mem_append, List.mem_singleton] at h hs
    rcases hs with (hs | rfl) | hs
    · exact h s (.inl hs)
    · exact rows
    · exact h s (.inr hs)
  exact ⟨Projection.plans_total fun s hs => splits s (List.mem_append_left _ hs),
    Projection.plans_group fun s hs => splits s (List.mem_append_right _ hs),
    both (P := fun s => s.Splits shape) trivial splits,
    both (P := fun s => ∀ t, s.SumFits shape (classOf tuple records t)) (fun _ adds => nomatch adds)
      fun s hs => Store.sumFits_classOf (fits s hs)⟩

/-- The totals of the one flat row of all records. -/
theorem regrouped_records (htotal : Ready shape total) (sound : Sound shape records)
    (fits : ∀ s ∈ total, s.SumFits shape records) :
    Projection.regrouped shape true (flatRows shape [] (planOf 0 total []) records) 0 total []
      = .ok ⟨none, Summary.overAll shape total records, Int64.ofInt records.length⟩ := by
  have all : ∀ r, classOf (tupleAt shape []) records (tupleAt shape [] r) = records := fun r =>
    List.filter_eq_self.2 fun _ _ => rfl
  have foldable : Foldable shape total [] (planOf 0 total []) (tupleAt shape []) records :=
    foldable_planOf 0 (by simpa using htotal.1) fun s hs r _ => by
      rw [all r]
      exact fits s (by simpa using hs)
  have covers : Covers shape (tupleAt shape []) records
      (orderedTuples [] true (tupleAt shape []) records) records :=
    ⟨Store.orderedTuples_perm fun _ _ _ => rfl, sound⟩
  have run := run_plan foldable covers (t := .rows (flatRows shape [] (planOf 0 total []) records))
    (.refl _)
  have planned : Projection.planned? shape true 0 total [] = .ok (planOf 0 total []) :=
    Projection.planned?_eq_ok.2 ⟨htotal.2, fun s hs => absurd hs List.not_mem_nil, rfl⟩
  rw [Projection.regrouped_of_run planned rfl run, filter_overAll]
  rfl

/-- The key of a flat row at a level. -/
def rowKey (levels : Nat) (row : Row) (level : Nat) : Value :=
  if level < levels then Tally.valueIn Row.read (some (.position (level + 1))) row else .null

theorem rowKey_of_get {levels level : Nat} {row : Row} {v : Value} (below : level < levels)
    (h : row.get (level + 1) = .ok v) : rowKey levels row level = v := by
  rw [rowKey, if_pos below, Tally.valueIn, Tally.readOptional, Row.read, h]
  rfl

/-- Rows that hold a key for every level form a tree of these keys. -/
theorem treeOf_rows {levels : Nat} (positive : 0 < levels) {rows : List Row}
    (held : ∀ row ∈ rows, ∀ level < levels, ∃ v, row.get (level + 1) = .ok v) :
    Projection.treeOf levels rows
      = .ok (.groups (tree (rowKey levels) (levels - 1) 0 rows)) := by
  have keys : ∀ row ∈ rows, ∀ level < levels,
      Projection.keyAt row level = .ok (rowKey levels row level) := by
    intro row hrow level below
    obtain ⟨v, get⟩ := held row hrow level below
    rw [rowKey_of_get below get]
    exact get
  rw [Projection.treeOf, if_pos positive, Grouping.byLevels_of_keys positive keys]
  rfl

/-- The key of a flat row is that of its tuple. -/
theorem rowKey_flatRow {levels : Nat} {tuple : Value → List Value} {t : List Value}
    (length : t.length = levels) (level : Nat) :
    rowKey levels (flatRow shape (planOf levels total group).columns tuple records t) level
      = keyIn t level := by
  rw [rowKey]
  split
  next below => exact Store.valueIn_flatRow (Projection.key_planOf below) t
  next above => rw [keyIn, List.getElem?_eq_none (by omega), Option.getD_none]

/-- The number in a flat row is that of the records of its tuple. -/
theorem rowCountOf_flatRow {levels : Nat} {tuple : Value → List Value} (sound : Sound shape records)
    (t : List Value) :
    rowCountOf (planOf levels total group).countPosition
        (flatRow shape (planOf levels total group).columns tuple records t)
      = .ok (classOf tuple records t).length := by
  have fits : Integer.Fits ((classOf tuple records t).length : Int) :=
    (sound.sublist List.filter_sublist).length
  exact rowCountOf_of_get fits (Store.get_flatRow Projection.count_planOf t)

/-- The number of records that a flat row stands for. -/
def recordsOf (plan : Projection) (row : Row) : Nat :=
  (rowCountOf plan.countPosition row).toOption.getD 0

theorem recordsOf_flatRow {levels : Nat} {tuple : Value → List Value} (sound : Sound shape records)
    (t : List Value) :
    recordsOf (planOf levels total group)
        (flatRow shape (planOf levels total group).columns tuple records t)
      = (classOf tuple records t).length := by
  rw [recordsOf, rowCountOf_flatRow sound]
  rfl

section Groups

variable (exact : ∀ g ∈ grouping, shape.PathIs FieldType.isExact g.selector)
variable (sound : Sound shape records)
include exact sound

/-- The flat rows of records stand for the records in an order that keeps the keys sorted. -/
theorem stands_flatRows {plan : Projection} (grouped : grouping ≠ []) (perm : xs.Perm records)
    (sorted : xs.Pairwise fun a b => (Sorting.compareKeys (grouping.map Grouping.desc)
      (tupleAt shape grouping a) (tupleAt shape grouping b)).isLE) :
    Stands (tupleAt shape grouping) (flatRow shape plan.columns (tupleAt shape grouping) records)
      records xs (flatRows shape grouping plan records) := by
  have keyed : grouping.isEmpty = false := by simpa using grouped
  rw [flatRows, keyed]
  exact Store.stands_of_sorted (fun x hx => Store.isTuple_tupleAt exact (sound.conform x hx)) perm
    sorted

omit exact sound in
/-- Flat rows are grouped by their keys, none of which is missing. -/
theorem treeOf_flatRows (grouped : grouping ≠ []) :
    Projection.treeOf grouping.length
        (flatRows shape grouping (planOf grouping.length total group) records)
      = .ok (.groups (tree (rowKey grouping.length) (grouping.length - 1) 0
          (flatRows shape grouping (planOf grouping.length total group) records))) := by
  apply treeOf_rows (List.length_pos_of_ne_nil grouped)
  intro row hrow level below
  obtain ⟨t, -, rfl⟩ := List.mem_map.1 hrow
  exact ⟨_, Store.get_flatRow (Projection.key_planOf below) t⟩

variable {plan : Projection} (hplan : planOf grouping.length total group = plan)
variable (foldable : Foldable shape total group plan (tupleAt shape grouping) records)
include hplan foldable

omit exact in
/-- The outline of flat rows, each of which counts for its records, is that of the records. -/
theorem outline_flatRows (below : Nat) {ys : List Row} (perm : xs.Perm records)
    (stands : Stands (tupleAt shape grouping)
      (flatRow shape plan.columns (tupleAt shape grouping) records) records xs ys) :
    (outline (rowKey grouping.length) (fun rows => (rows.map (recordsOf plan)).sum)
        (fun rows => (Rollup.summarize (tallied Row.read) plan.rollup rows).map
          (SumZeros.filledAll shape true group)) below 0 ys : List (Group Value))
      = outline (keyOf (tupleAt shape grouping)) List.length (Summary.overAll shape group)
          below 0 xs := by
  have keys : ∀ x ∈ records, ∀ level, rowKey grouping.length
      (flatRow shape plan.columns (tupleAt shape grouping) records (tupleAt shape grouping x)) level
        = keyIn (tupleAt shape grouping x) level :=
    fun x _ level => hplan ▸ rowKey_flatRow (List.length_map _) level
  refine stands.outline_eq keys (fun x _ => ?_) (fun part rows stands sub => ?_) below
  · rw [← hplan, recordsOf_flatRow sound]
  · have covers : Covers shape (tupleAt shape grouping) records
        (Bucket.firsts Store.sameTuple (part.map (tupleAt shape grouping))) part :=
      ⟨stands.flatMap_perm, (sound.perm perm).sublist sub⟩
    rw [stands.rows_eq]
    exact summarize_plan foldable covers

end Groups

/-- The groups of flat rows collapse to the outline of the records. -/
theorem regrouped_groups (exact : ∀ g ∈ grouping, shape.PathIs FieldType.isExact g.selector)
    (sound : Sound shape records) (grouped : grouping ≠ []) (htotal : Ready shape total)
    (hgroup : Ready shape group)
    (fits : ∀ s ∈ total ++ group, ∀ r ∈ records,
      s.SumFits shape (classOf (tupleAt shape grouping) records (tupleAt shape grouping r)))
    (perm : xs.Perm records)
    (sorted : xs.Pairwise fun a b => (Sorting.compareKeys (grouping.map Grouping.desc)
      (tupleAt shape grouping a) (tupleAt shape grouping b)).isLE) :
    ∃ gs, Projection.regrouped shape true
          (flatRows shape grouping (planOf grouping.length total group) records) grouping.length
          total group
        = .ok ⟨some gs, Summary.overAll shape total xs, Int64.ofInt xs.length⟩
      ∧ collapse.collapseAll (planOf grouping.length total group).countPosition gs
        = .ok (outline (keyOf (tupleAt shape grouping)) List.length
            (Summary.overAll shape group) (grouping.length - 1) 0 xs) := by
  have treed : Projection.treeOf grouping.length
      (flatRows shape grouping (planOf grouping.length total group) records) = _ :=
    treeOf_flatRows grouped
  generalize hplan : planOf grouping.length total group = plan at treed ⊢
  have foldable : Foldable shape total group plan (tupleAt shape grouping) records :=
    hplan ▸ foldable_planOf grouping.length (List.forall_mem_append.2 ⟨htotal.1, hgroup.1⟩) fits
  have covers : Covers shape (tupleAt shape grouping) records
      (orderedTuples grouping grouping.isEmpty (tupleAt shape grouping) records) xs := by
    refine ⟨(Store.orderedTuples_perm fun none => ?_).trans perm.symm, sound.perm perm⟩
    exact absurd (List.isEmpty_iff.1 none) grouped
  have run := run_plan foldable covers (t := .groups (tree (rowKey grouping.length)
    (grouping.length - 1) 0 (flatRows shape grouping plan records)))
    (Grouping.leafRows_tree_perm _ _ _ _)
  refine ⟨resumAll (Option.map (SumZeros.filledAll shape true group))
    (dressAll (Rollup.summarize (tallied Row.read) plan.rollup)
      (tree (rowKey grouping.length) (grouping.length - 1) 0
        (flatRows shape grouping plan records))), ?_, ?_⟩
  · rw [Projection.regrouped_of_run (Projection.planned?_eq_ok.2 ⟨htotal.2, hgroup.2, hplan⟩) treed
      run, filter_overAll]
    rfl
  · have counted : ∀ row ∈ flatRows shape grouping plan records,
        rowCountOf plan.countPosition row = .ok (recordsOf plan row) := by
      intro row hrow
      obtain ⟨t, -, rfl⟩ := List.mem_map.1 hrow
      rw [← hplan, rowCountOf_flatRow sound t, recordsOf_flatRow sound t]
    have stands : Stands _ (flatRow shape plan.columns _ records) records xs _ :=
      stands_flatRows exact sound grouped perm sorted
    have all : ((flatRows shape grouping plan records).map (recordsOf plan)).sum = xs.length :=
      stands.sum_counts fun x _ => hplan ▸ recordsOf_flatRow sound _
    have unordered : Unordered (flatRows shape grouping plan records) _ :=
      unordered_plan foldable covers
    rw [Grouping.collapseAll_tree _ _ unordered counted (all ▸ (sound.perm perm).length_lt),
      outline_flatRows sound hplan foldable _ perm stands]

end Loader

end DataGrid
