import DataGrid.Proofs.Store.Projecting

/-!
# The keys and the counts of flat rows

Whatever summaries a plan has: a projection over records whose keys are exact gives one row for
every tuple of keys, with the keys of the tuple and the number of its records
(`Store.project_planOf`).
-/

namespace DataGrid.Store

open Projection (planOf)

variable {shape : Shape} {columns : List Column} {resolved : List ResolvedColumn}
variable {t members : List Value} {row : Row}

/-- A flat row that holds the cells of a tuple of keys and its records. -/
def Holds (resolved : List ResolvedColumn) (t members : List Value) (row : Row) : Prop :=
  resolved.mapM (fun c => cell c t members) = .ok row.values

/-- A row that holds a class has the cell of a column at its position. -/
theorem get_of_holds (h : columns.mapM (resolvedColumn shape) = .ok resolved)
    (holds : Holds resolved t members row) {n : Nat} {c : Column} (hc : columns[n]? = some c) :
    ∃ rc v, resolvedColumn shape c = .ok rc ∧ cell rc t members = .ok v ∧ row.get n = .ok v := by
  have columns := Outcome.mapM_eq_ok.1 h
  have values := Outcome.mapM_eq_ok.1 holds
  obtain ⟨hn, rfl⟩ := List.getElem?_eq_some_iff.1 hc
  have hn' := columns.length_eq ▸ hn
  have hn'' := values.length_eq ▸ hn'
  refine ⟨_, _, columns.get hn hn', values.get hn' hn'', ?_⟩
  rw [Row.get, List.getElem?_eq_getElem hn'']
  rfl

/-- The key of a row at a level. -/
theorem get_key (h : columns.mapM (resolvedColumn shape) = .ok resolved)
    (holds : Holds resolved t members row) {n level : Nat} (hc : columns[n]? = some (.key level)) :
    row.get n = .ok (keyIn t level) := by
  obtain ⟨rc, v, hrc, hcell, hget⟩ := get_of_holds h holds hc
  cases hrc
  cases hcell
  exact hget

/-- The number of records of a row. -/
theorem rowCountOf_of_holds (h : columns.mapM (resolvedColumn shape) = .ok resolved)
    (holds : Holds resolved t members row) (fits : Integer.Fits members.length) {n : Nat}
    (hc : columns[n]? = some .rowCount) : Loader.rowCountOf n row = .ok members.length := by
  obtain ⟨rc, v, hrc, hcell, hget⟩ := get_of_holds h holds hc
  cases hrc
  cases hcell
  exact Loader.rowCountOf_of_get fits hget

/-- A projection gives a row for every tuple of keys. -/
theorem project_tuples {s : Store} {q : ProjectionQuery} {rows : List Row}
    (h : s.project false q = .ok rows) (conform : ∀ r ∈ s.records, s.shape.conforms r = true)
    (exact : ∀ g ∈ q.grouping, s.shape.PathIs FieldType.isExact g.selector) :
    ∃ records resolved flat, select q.predicate s.records = .ok records
      ∧ (∃ keys, q.grouping.mapM (fun g => Accessor.ofPath s.shape true g.selector) = .ok keys)
      ∧ q.plan.columns.mapM (resolvedColumn s.shape) = .ok resolved
      ∧ rows = (orderedTuples q.grouping q.grouping.isEmpty (tupleAt s.shape q.grouping)
          records).map flat
      ∧ ∀ t ∈ orderedTuples q.grouping q.grouping.isEmpty (tupleAt s.shape q.grouping) records,
          Holds resolved t (classOf (tupleAt s.shape q.grouping) records t) (flat t) := by
  obtain ⟨records, keys, resolved, found, hselect, hkeys, hresolved, hfound, hrows⟩ :=
    project_eq_ok.1 h
  have none : keys.isEmpty = q.grouping.isEmpty :=
    Outcome.isEmpty_of_forall₂ (Outcome.mapM_eq_ok.1 hkeys)
  have conform : ∀ r ∈ records, s.shape.conforms r = true := fun r hr =>
    conform r ((sublist_of_select hselect).mem hr)
  rw [buckets_eq fun r hr => mapM_read hkeys exact (conform r hr), none] at hfound
  cases hfound
  rw [List.forall₂_map_left_iff] at hrows
  -- the row that the projection gives for a tuple
  let flat (t : List Value) : Row := ⟨((resolved.mapM fun c =>
    cell c t (classOf (tupleAt s.shape q.grouping) records t)).toOption).getD []⟩
  have both := hrows.imp (S := fun t row =>
      Holds resolved t (classOf (tupleAt s.shape q.grouping) records t) (flat t) ∧ flat t = row)
    fun t row hrow => by
      have read : flat t = row := by
        simp only [flat, hrow]
        rfl
      exact ⟨read ▸ hrow, read⟩
  obtain ⟨holds, same⟩ := (List.forall₂_and_left _ _).1 both
  rw [← List.forall₂_map_left_iff, List.forall₂_eq_eq_eq] at same
  exact ⟨records, resolved, flat, hselect, ⟨keys, hkeys⟩, hresolved, same.symm, holds⟩

section Tuples

variable {grouping : List Grouping} {records : List Value}

/-- The tuples of a table are those of its records. -/
theorem mem_orderedTuples (grouped : grouping ≠ [])
    (exact : ∀ g ∈ grouping, shape.PathIs FieldType.isExact g.selector)
    (conform : ∀ r ∈ records, shape.conforms r = true) {t : List Value} :
    t ∈ orderedTuples grouping grouping.isEmpty (tupleAt shape grouping) records
      ↔ ∃ r ∈ records, tupleAt shape grouping r = t := by
  have keyed : grouping.isEmpty = false := by simpa using grouped
  rw [orderedTuples, keyed, (Sorting.arrange_perm _ _).mem_iff, ← List.mem_map]
  exact mem_firsts_iff fun r hr => isTuple_tupleAt exact (conform r hr)

/-- The rows of the tuples of records stand for the records in some order. -/
theorem exists_stands (grouped : grouping ≠ [])
    (exact : ∀ g ∈ grouping, shape.PathIs FieldType.isExact g.selector)
    (conform : ∀ r ∈ records, shape.conforms r = true) (flat : List Value → Row) :
    ∃ xs : List Value, xs.Perm records ∧ Stands (tupleAt shape grouping) flat records xs
      ((orderedTuples grouping grouping.isEmpty (tupleAt shape grouping) records).map flat) := by
  have keyed : grouping.isEmpty = false := by simpa using grouped
  have tuples : ∀ r ∈ records, Sorting.IsTuple (grouping.map Grouping.desc).length
      (tupleAt shape grouping r) := fun r hr => isTuple_tupleAt exact (conform r hr)
  have sorted := Sorting.pairwise_arrange
    (Sorting.compareKeys_orders (grouping.map Grouping.desc)).places tuples
  rw [keyed]
  exact ⟨_, Sorting.arrange_perm _ records,
    stands_of_sorted tuples (Sorting.arrange_perm _ records) sorted⟩

/-- What a flat row says of the records with a tuple of keys. -/
structure TellsOf (plan : Projection) (levels : Nat) (t members : List Value) (row : Row) :
    Prop where
  /-- the keys -/
  keys : ∀ level < levels, row.get (level + 1) = .ok (keyIn t level)
  /-- the number of records -/
  count : Loader.rowCountOf plan.countPosition row = .ok members.length

/-- A projection gives a row for every tuple of keys, which tells of its records. -/
theorem project_planOf {s : Store} {predicate : Predicate} {total group : List Summary}
    {rows : List Row} {plan : Projection} (hplan : planOf grouping.length total group = plan)
    (h : s.project false ⟨predicate, grouping, plan⟩ = .ok rows) (grouped : grouping ≠ [])
    (sound : Sound s.shape s.records)
    (exact : ∀ g ∈ grouping, s.shape.PathIs FieldType.isExact g.selector) :
    ∃ records flat, select predicate s.records = .ok records
      ∧ (∃ keys, grouping.mapM (fun g => Accessor.ofPath s.shape true g.selector) = .ok keys)
      ∧ rows = (orderedTuples grouping grouping.isEmpty (tupleAt s.shape grouping) records).map flat
      ∧ ∀ r ∈ records, TellsOf plan grouping.length (tupleAt s.shape grouping r)
          (classOf (tupleAt s.shape grouping) records (tupleAt s.shape grouping r))
          (flat (tupleAt s.shape grouping r)) := by
  obtain ⟨records, resolved, flat, hselect, hkeys, hresolved, hrows, holds⟩ :=
    project_tuples h sound.conform exact
  have sound := sound.sublist (sublist_of_select hselect)
  refine ⟨records, flat, hselect, hkeys, hrows, fun r hr => ?_⟩
  have holds := holds _ ((mem_orderedTuples grouped exact sound.conform).2 ⟨r, hr, rfl⟩)
  refine ⟨fun level below => get_key hresolved holds (hplan ▸ Projection.key_planOf below), ?_⟩
  exact rowCountOf_of_holds hresolved holds (sound.sublist List.filter_sublist).length
    (hplan ▸ Projection.count_planOf)

end Tuples

end DataGrid.Store
