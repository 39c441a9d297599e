import DataGrid.Proofs.Loader.Form
import DataGrid.Proofs.Loader.GroupsOfBackend
import DataGrid.Proofs.Store.Keys

/-!
# The number of records in flat rows

Every record that matches is in one bucket of a projection, and every flat row holds the number of
records in its bucket. So the number of all rows that a plan ends in is the number of matching
records (`Loader.totalCount_of_grouped`), whatever the keys and the summaries are.
-/

namespace DataGrid

open Subtree (leafRows leafRowsOf)
open Tally (ofLength valueIn)

namespace Store

variable {shape : Shape} {keys : List Accessor} {grouping : List Grouping} {records : List Value}

/-- Every record is in one bucket. -/
theorem flatMap_buckets_perm {found : List (List Value × List Value)}
    (h : buckets keys grouping records = .ok found) : (found.flatMap Prod.snd).Perm records := by
  obtain ⟨pairs, hpairs, h⟩ := Outcome.bind_eq_ok.1 h
  have collected := Bucket.flatMap_collect_perm sameTuple pairs
  rw [Outcome.map_snd_of_mapM_eq_ok hpairs] at collected
  cases h
  refine ((Sorting.arrange_perm _ _).flatMap_right Prod.snd).trans ?_
  split
  next none =>
    -- without keys and records there is one bucket, which is empty
    rw [Bool.and_eq_true, List.isEmpty_iff, List.isEmpty_iff] at none
    rw [none.2] at collected
    exact collected
  next => exact collected

/-- The buckets have together as many records as there are. -/
theorem sum_length_buckets {found : List (List Value × List Value)}
    (h : buckets keys grouping records = .ok found) :
    (found.map fun bucket => bucket.2.length).sum = records.length := by
  rw [← (flatMap_buckets_perm h).length_eq, List.length_flatMap]

/-- The rows of a projection hold the numbers of records that they stand for, which add up to the
number of records that match. -/
theorem project_counts {s : Store} {q : ProjectionQuery} {rows : List Row}
    (h : s.project false q = .ok rows) {n : Nat} (hn : q.plan.columns[n]? = some .rowCount) :
    ∃ found ns, select q.predicate s.records = .ok found ∧ ns.sum = found.length
      ∧ List.Forall₂ (fun row count => row.get n = .ok (ofLength count)) rows ns := by
  obtain ⟨found, keys, resolved, buckets, hselect, -, hresolved, hbuckets, hrows⟩ :=
    project_eq_ok.1 h
  refine ⟨found, buckets.map fun bucket => bucket.2.length, hselect,
    sum_length_buckets hbuckets, ?_⟩
  rw [List.forall₂_map_right_iff]
  refine hrows.flip.imp fun row bucket holds => ?_
  obtain ⟨rc, v, hrc, hcell, hget⟩ := get_of_holds hresolved holds hn
  cases hrc
  cases hcell
  exact hget

end Store

namespace Grouping

variable {α ε : Type}

/-- Grouping loses, doubles and changes no row. -/
theorem leafRows_byLevels_perm {keyOf : α → Nat → Except ε Value} {levels : Nat} {rows : List α}
    {gs : List (Group α)} (hlevels : 0 < levels) (h : byLevels keyOf levels rows = .ok gs) :
    (leafRowsOf gs).Perm rows := by
  have keys : ∀ row ∈ rows, ∀ level < levels,
      keyOf row level = .ok ((keyOf row level).toOption.getD .null) := by
    intro row hrow level below
    obtain ⟨k, hk⟩ := keys_of_byLevels hlevels h row hrow level below
    rw [hk]
    rfl
  rw [byLevels_of_keys hlevels keys] at h
  cases h
  exact leafRows_tree_perm _ _ _ rows

end Grouping

namespace Projection

variable {shape : Shape} {guardNulls : Bool} {total group : List Summary}

/-- A tree of rows has the rows, in another order. -/
theorem leafRows_treeOf_perm {levels : Nat} {rows : List Row} {t : Subtree Row}
    (h : treeOf levels rows = .ok t) : (leafRows t).Perm rows := by
  rw [treeOf] at h
  split at h
  next positive =>
    obtain ⟨gs, hgs, rfl⟩ := Outcome.map_eq_ok.1 h
    exact Grouping.leafRows_byLevels_perm positive hgs
  next =>
    cases h
    exact .refl _

/-- Counts that are added up give their sum, if a word holds it, in whatever order they come. -/
theorem fold_remoteCount {n : Nat} {rows rows' : List Row} {ns : List Nat} (perm : rows'.Perm rows)
    (counts : List.Forall₂ (fun row count => row.get n = .ok (ofLength count)) rows ns)
    (fits : Integer.Fits (ns.sum : Int)) :
    (Measure.of .remoteCount (some (.position n))).fold Row.read rows' = .ok (ofLength ns.sum) := by
  have read : ∀ row ∈ rows', ∃ count, row.get n = .ok (ofLength count) := by
    intro row hrow
    obtain ⟨i, hi, rfl⟩ := List.mem_iff_getElem.1 (perm.mem_iff.1 hrow)
    exact ⟨_, counts.get hi (counts.length_eq ▸ hi)⟩
  have values : rows.map (valueIn Row.read (some (.position n))) = ns.map ofLength := by
    rw [← List.forall₂_eq_eq_eq, List.forall₂_map_left_iff, List.forall₂_map_right_iff]
    refine counts.imp fun row count get => ?_
    rw [valueIn, Tally.readOptional, Row.read, get]
    rfl
  obtain ⟨ns', hns', perm'⟩ := Loader.exists_map_of_perm (f := ofLength)
    (values ▸ perm.map (valueIn Row.read (some (.position n))))
  have steady : Tally.Steady Row.read (· ∈ rows') (.of .remoteCount (some (.position n))) := by
    refine ⟨fun row hrow => ?_, fun row _ => ⟨.null, rfl⟩, fun _ row hrow => ?_, fun h => ?_⟩
    · obtain ⟨count, get⟩ := read row hrow
      exact ⟨_, get⟩
    · obtain ⟨count, get⟩ := read row hrow
      refine .inr ⟨Int64.ofInt count, ?_⟩
      rw [Measure.of, valueIn, Tally.readOptional, Row.read, get]
      rfl
    · cases h
  have same : ns'.sum = ns.sum := perm'.sum_eq
  rw [Measure.fold, steady.tallies rows' fun _ hrow => hrow, Tally.tallied]
  simp only [Measure.of, hns']
  refine congrArg Except.ok ?_
  rw [Tally.finish_remoteCount (same ▸ fits), same]

/-- The number of all rows that comes of flat rows is the sum of the numbers in them. -/
theorem totalCount_regrouped {rows : List Row} {levels : Nat} {result : Regrouped} {ns : List Nat}
    (counts : List.Forall₂ (fun row count =>
      row.get (planOf levels total group).countPosition = .ok (ofLength count)) rows ns)
    (fits : Integer.Fits (ns.sum : Int))
    (h : regrouped shape guardNulls rows levels total group = .ok result) :
    result.totalCount.toInt = ns.sum := by
  obtain ⟨-, -, t, t', totals, n, rest, ht, run, hcount, rfl⟩ := regrouped_eq_ok h
  obtain ⟨-, gives⟩ := Rollup.run_eq_ok_iff.1 run
  obtain ⟨values, v, rfl, -, hv⟩ := totals_planOf gives
  obtain ⟨rfl, -⟩ := takeCount_concat_eq_ok hcount
  rw [fold_remoteCount (leafRows_treeOf_perm ht) counts fits] at hv
  cases hv
  exact Integer.toInt_ofInt_of_fits fits

end Projection

/-- The number of all rows that comes of a store is the number of records that match. -/
theorem Loader.totalCount_of_grouped {store : Store} {predicate : Predicate}
    {grouping : List Grouping} {total group : List Summary} {s : Settings} {result : Regrouped}
    {countPosition : Nat} (h : grouped store predicate grouping total group s
      = .ok (result, countPosition)) :
    ∃ found, Store.select predicate store.records = .ok found
      ∧ (Integer.Fits (store.size : Int) → result.totalCount.toInt = found.length) := by
  obtain ⟨plan, hplan, h⟩ := Outcome.bind_eq_ok.1 h
  obtain ⟨rows, hrows, h⟩ := Outcome.bind_eq_ok.1 h
  obtain ⟨result', hresult, h⟩ := Outcome.bind_eq_ok.1 h
  cases h
  rw [Outcome.mapError_eq_ok] at hplan hrows hresult
  obtain ⟨-, -, rfl⟩ := Projection.planned?_eq_ok.1 hplan
  obtain ⟨found, ns, hselect, sum, counts⟩ := Store.project_counts hrows Projection.count_planOf
  refine ⟨found, hselect, fun fits => ?_⟩
  have le : found.length ≤ store.size := (Store.sublist_of_select hselect).length_le
  have fits : Integer.Fits (ns.sum : Int) := by
    rw [sum]
    exact ⟨Int.le_trans (by decide) (Int.natCast_nonneg _),
      Int.le_trans (Int.ofNat_le.2 le) fits.2⟩
  rw [Projection.totalCount_regrouped counts fits hresult, sum]

end DataGrid
