import DataGrid.Proofs.Store.Flat
import DataGrid.Proofs.SumZeros

/-!
# What a projection gives

* Summaries of a plan read the columns that they need (`Projection.plans_total`, `plans_group`).
* A projection of summaries that split, over records that conform, gives the flat rows of the tuples
  of keys (`Store.project_eq`).
* Over these rows the summaries of a plan come out at the values of the summaries over the records
  (`Store.finish_plans`).
-/

namespace DataGrid

open Tally (tallied Steady)
open Projection (columnsFor planned settle planOf)
open Summary (Splits SumFits)

namespace Projection

variable {shape : Shape} {levels : Nat} {total group : List Summary}

open Store (Plans plans_settle)

/-- The entries of a plan read the columns that their summaries need. -/
theorem plans_planned {columns : List Column} {ss : List Summary} {ps : List PlannedSummary}
    {countPosition : Nat} (splits : ∀ s ∈ ss, s.Splits shape)
    (h : List.Forall₂ (Reads columns) ss ps) (count : columns[countPosition]? = some .rowCount) :
    List.Forall₂ (Plans columns) ss (ps.map (settle countPosition)) := by
  induction h with
  | nil => exact .nil
  | cons hsp _ ih =>
    obtain ⟨hs, hss⟩ := List.forall_mem_cons.1 splits
    exact .cons (plans_settle hs hsp count) (ih hss)

/-- The totals of a plan are those of the request and the number of all records. -/
theorem plans_total (splits : ∀ s ∈ total, s.Splits shape) :
    List.Forall₂ (Plans (planOf levels total group).columns) (total ++ [Summary.rows])
      (planOf levels total group).total :=
  List.rel_append (plans_planned splits reads_total count_planOf)
    (.cons ⟨rfl, List.nil_prefix, fun _ => count_planOf⟩ .nil)

theorem plans_group (splits : ∀ s ∈ group, s.Splits shape) :
    List.Forall₂ (Plans (planOf levels total group).columns) group
      (planOf levels total group).group :=
  plans_planned splits reads_group count_planOf

end Projection

namespace Store

variable {shape : Shape} {grouping : List Grouping} {records : List Value}

/-- The tuple of the keys of a record. -/
def tupleAt (shape : Shape) (grouping : List Grouping) (record : Value) : List Value :=
  grouping.map fun g => shape.valueAt g.selector record

/-- The tuple of the keys of a record that conforms is one of exact values. -/
theorem isTuple_tupleAt (exact : ∀ g ∈ grouping, shape.PathIs FieldType.isExact g.selector)
    {record : Value} (conforms : shape.conforms record = true) :
    Sorting.IsTuple (grouping.map Grouping.desc).length (tupleAt shape grouping record) := by
  refine ⟨by rw [tupleAt, List.length_map, List.length_map], fun v hv => ?_⟩
  obtain ⟨g, hg, rfl⟩ := List.mem_map.1 hv
  exact Shape.isExact_valueAt (exact g hg) conforms

/-- The keys of a record that conforms are its tuple. -/
theorem mapM_read {keys : List Accessor}
    (hkeys : grouping.mapM (fun g => Accessor.ofPath shape true g.selector) = .ok keys)
    (exact : ∀ g ∈ grouping, shape.PathIs FieldType.isExact g.selector) {record : Value}
    (conforms : shape.conforms record = true) :
    keys.mapM (·.read record) = .ok (tupleAt shape grouping record) := by
  rw [Outcome.mapM_eq_ok, tupleAt]
  induction Outcome.mapM_eq_ok.1 hkeys with
  | nil => exact .nil
  | cons hga hrest ih =>
    obtain ⟨hg, hgs⟩ := List.forall_mem_cons.1 exact
    exact .cons (Shape.read_eq_valueAt hga (FieldType.isDynamic_of_isExact (hg _ hga)) conforms).1
      (ih (Outcome.mapM_eq_ok.2 hrest) hgs)

/-- The columns of a summary that splits and resolves can be computed. -/
theorem columnsFor_suit {s : Summary} (splits : s.Splits shape)
    (resolved : ∃ a?, s.resolved shape true = .ok a?) {c : Column} (hc : c ∈ columnsFor s) :
    Suits shape c ∧ ∃ rc, resolvedColumn shape c = .ok rc := by
  obtain ⟨selector, kind⟩ := s
  obtain ⟨a?, resolved⟩ := resolved
  have reads (h : kind.readsSelector = true) :
      ∃ a, Accessor.ofPath shape true (selector.getD "") = .ok a := by
    rcases Summary.resolved_eq_ok resolved with ⟨none, -⟩ | ⟨-, path, a, hselector, ha, -⟩
    · simp only at none
      rw [none] at h
      cases h
    · simp only at hselector
      exact ⟨a, by rw [hselector]; exact ha⟩
  have column (h : kind.readsSelector = true) (hc : selectorOf? c = some (selector.getD "")) :
      ∃ rc, resolvedColumn shape c = .ok rc := by
    obtain ⟨a, ha⟩ := reads h
    exact ⟨⟨c, some a⟩, by simp only [resolvedColumn, hc, ha]; rfl⟩
  cases kind with
  | sum | min | max =>
    obtain rfl := List.mem_singleton.1 hc
    exact ⟨splits, column rfl rfl⟩
  | avg =>
    rcases List.mem_cons.1 hc with rfl | hc
    · exact ⟨splits, column rfl rfl⟩
    · obtain rfl := List.mem_singleton.1 hc
      exact ⟨splits, column rfl rfl⟩
  | count => cases hc
  | remoteCount | remoteAvg => exact splits.elim

/-- Summaries that split, and all resolve. -/
def Ready (shape : Shape) (ss : List Summary) : Prop :=
  (∀ s ∈ ss, s.Splits shape) ∧ SumZeros.Resolve shape true ss

/-- All columns of a plan suit the shape, and resolve. -/
theorem planOf_suits (levels : Nat) {total group : List Summary} (htotal : Ready shape total)
    (hgroup : Ready shape group) :
    ∀ c ∈ (planOf levels total group).columns,
      Suits shape c ∧ ∃ rc, resolvedColumn shape c = .ok rc := by
  have all {ss : List Summary} (h : Ready shape ss) : ∀ c ∈ ss.flatMap columnsFor,
      Suits shape c ∧ ∃ rc, resolvedColumn shape c = .ok rc := by
    intro c hc
    obtain ⟨s, hs, hc⟩ := List.mem_flatMap.1 hc
    exact columnsFor_suit (h.1 s hs) (h.2 s hs) hc
  intro c hc
  simp only [planOf, List.mem_append, List.mem_cons, List.mem_map] at hc
  rcases hc with (((rfl | ⟨level, -, rfl⟩) | hc) | hc) | rfl | hc
  · exact ⟨trivial, _, rfl⟩
  · exact ⟨trivial, _, rfl⟩
  · exact all htotal c hc
  · exact all hgroup c hc
  · exact ⟨trivial, _, rfl⟩
  · cases hc

/-- The cells of a class are those that its columns say. -/
theorem cells_eq {columns : List Column} {rcs : List ResolvedColumn} {t members : List Value}
    (h : List.Forall₂ (fun c rc => resolvedColumn shape c = .ok rc) columns rcs)
    (suits : ∀ c ∈ columns, Suits shape c) (conform : ∀ m ∈ members, shape.conforms m = true) :
    rcs.mapM (fun c => cell c t members) = .ok (columns.map (cellOf shape t members)) := by
  rw [Outcome.mapM_eq_ok]
  induction h with
  | nil => exact .nil
  | cons hc _ ih =>
    obtain ⟨hs, hss⟩ := List.forall_mem_cons.1 suits
    exact .cons (cell_eq hc hs conform) (ih hss)

/-- The flat rows of the tuples of keys of records, for a plan. -/
def flatRows (shape : Shape) (grouping : List Grouping) (plan : Projection)
    (records : List Value) : List Row :=
  (orderedTuples grouping grouping.isEmpty (tupleAt shape grouping) records).map
    (flatRow shape plan.columns (tupleAt shape grouping) records)

/-- A projection gives the flat rows of its plan. -/
theorem project_eq {s : Store} {predicate : Predicate} {total group : List Summary}
    (hselect : select predicate s.records = .ok records)
    (conform : ∀ r ∈ records, s.shape.conforms r = true)
    (hkeys : ∃ keys, grouping.mapM (fun g => Accessor.ofPath s.shape true g.selector) = .ok keys)
    (exact : ∀ g ∈ grouping, s.shape.PathIs FieldType.isExact g.selector)
    (htotal : Ready s.shape total) (hgroup : Ready s.shape group) :
    s.project false ⟨predicate, grouping, planOf grouping.length total group⟩
      = .ok (flatRows s.shape grouping (planOf grouping.length total group) records) := by
  obtain ⟨keys, hkeys⟩ := hkeys
  have suits := planOf_suits grouping.length htotal hgroup
  obtain ⟨rcs, hrcs⟩ := Outcome.exists_mapM_eq_ok fun c hc => (suits c hc).2
  have none : keys.isEmpty = grouping.isEmpty :=
    Outcome.isEmpty_of_forall₂ (Outcome.mapM_eq_ok.1 hkeys)
  have found : buckets keys grouping records = _ :=
    buckets_eq fun r hr => mapM_read hkeys exact (conform r hr)
  rw [none] at found
  refine project_eq_ok.2 ⟨records, keys, rcs, _, hselect, hkeys, hrcs, found, ?_⟩
  rw [flatRows, List.forall₂_map_left_iff, List.forall₂_map_right_iff]
  refine List.forall₂_same.2 fun t _ => ?_
  exact cells_eq (Outcome.mapM_eq_ok.1 hrcs) (fun c hc => (suits c hc).1)
    fun r hr => conform r (List.mem_filter.1 hr).1

/-! ### Planned summaries over the rows -/

section Fold

variable {columns : List Column} {tuple : Value → List Value} {ts : List (List Value)}
variable {ss : List Summary} {ps : List PlannedSummary}

/-- The measures of a plan can be folded over the flat rows. -/
theorem steady_plans (h : List.Forall₂ (Plans columns) ss ps) (splits : ∀ s ∈ ss, s.Splits shape)
    (fits : ∀ s ∈ ss, ∀ t ∈ ts, s.SumFits shape (classOf tuple records t)) :
    ∀ m ∈ ps.map PlannedSummary.measure,
      Steady Row.read (· ∈ ts.map (flatRow shape columns tuple records)) m := by
  induction h with
  | nil => exact fun m hm => absurd hm List.not_mem_nil
  | cons hsp _ ih =>
    obtain ⟨hs, hss⟩ := List.forall_mem_cons.1 splits
    obtain ⟨hf, hfs⟩ := List.forall_mem_cons.1 fits
    exact List.forall_mem_cons.2 ⟨steady_planned hsp hs hf, ih hss hfs⟩

/-- They give over flat rows what the summaries give over the records that these cover. -/
theorem finish_plans (h : List.Forall₂ (Plans columns) ss ps) (splits : ∀ s ∈ ss, s.Splits shape)
    {xs : List Value} (covers : Covers shape tuple records ts xs)
    (fits : ∀ s ∈ ss, ∀ t ∈ ts, s.SumFits shape (classOf tuple records t)) :
    (ps.map PlannedSummary.measure).map (fun m =>
        (tallied Row.read m (ts.map (flatRow shape columns tuple records))).finish)
      = ss.map (·.valueOver shape xs) := by
  induction h with
  | nil => rfl
  | cons hsp _ ih =>
    obtain ⟨hs, hss⟩ := List.forall_mem_cons.1 splits
    obtain ⟨hf, hfs⟩ := List.forall_mem_cons.1 fits
    simp only [List.map_cons]
    rw [finish_planned hsp hs covers hf, ih hss hfs]

end Fold

end Store

end DataGrid
