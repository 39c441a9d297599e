import DataGrid.Proofs.Loader.GroupsOfBackend
import DataGrid.Proofs.Sorting.Stable

/-!
# Grouping here and in the backend

A request over a store has one answer, whether the groups and totals are formed of the records or
the store is left to group (`Loader.serve_groupingRemotely`). The request has to be one that can be
put together from parts: what it groups and sorts by is exact, its summaries split, its innermost
groups are collapsed, and no sum over one of them leaves the range of a word.
-/

namespace DataGrid

open Grouping (outline)
open Projection (planOf)
open Store (Ready tupleAt keyOf classOf flatRows)

namespace Store

variable {shape : Shape} {records : List Value}

/-- The key that a record is sorted by. -/
def sortKey (shape : Shape) (sort : List Sorting) (record : Value) : List Value :=
  sort.map fun s => shape.valueAt s.selector record

/-- The levels of a sorter are those it is made of, and it reads the key of a record that
conforms. -/
theorem keyOf_resolved {sort : List Sorting} {sorter : Sorter}
    (h : Sorter.resolved shape true sort = .ok sorter)
    (exact : ∀ s ∈ sort, shape.PathIs FieldType.isExact s.selector) :
    sorter.keys.map Prod.snd = sort.map Sorting.desc
      ∧ ∀ record, shape.conforms record = true →
        sorter.keyOf record = .ok (sortKey shape sort record) := by
  obtain ⟨keys, hkeys, -⟩ := Outcome.bind_eq_ok.1 h
  refine ⟨Sorter.desc_of_resolved h, fun record conforms => Sorter.keyOf_of_resolved h ?_⟩
  rw [Sorter.ReadsKey, sortKey, List.forall₂_map_right_iff]
  refine List.forall₂_same.2 fun s hs => ?_
  obtain ⟨k, -, hk⟩ := Outcome.exists_of_mapM_eq_ok hkeys hs
  obtain ⟨a, ha, -⟩ := Outcome.bind_eq_ok.1 hk
  have static := FieldType.isDynamic_of_isExact (exact s hs a ha)
  exact ⟨a, ha, (Shape.read_eq_valueAt ha static conforms).1⟩

/-- All records that match, as they are held. -/
theorem load_all {s : Store} {predicate : Predicate}
    (h : s.load false (.all predicate) = .ok records) :
    select predicate s.records = .ok records := by
  obtain ⟨found, sorter, sorted, hselect, hsorter, hsort, rfl⟩ := load_eq_ok.1 h
  cases hsorter
  cases hsort
  exact hselect

/-- The key that a record that conforms is sorted by is one of exact values. -/
theorem isTuple_sortKey {sort : List Sorting}
    (exact : ∀ s ∈ sort, shape.PathIs FieldType.isExact s.selector) {record : Value}
    (conforms : shape.conforms record = true) :
    Sorting.IsTuple sort.length (sortKey shape sort record) := by
  refine ⟨List.length_map _, fun v hv => ?_⟩
  obtain ⟨k, hk, rfl⟩ := List.mem_map.1 hv
  exact Shape.isExact_valueAt (exact k hk) conforms

/-- The order of records by levels of sorting. -/
def sortOrder (shape : Shape) (sort : List Sorting) (a b : Value) : Ordering :=
  Sorting.compareKeys (sort.map Sorting.desc) (sortKey shape sort a) (sortKey shape sort b)

/-- The group keys come first. -/
theorem sortOrder_grouped (grouping : List Grouping) (sort : List Sorting) (a b : Value) :
    sortOrder shape (grouping.map Grouping.toSorting ++ sort) a b
      = (Sorting.compareKeys (grouping.map Grouping.desc) (tupleAt shape grouping a)
          (tupleAt shape grouping b)).then (sortOrder shape sort a b) := by
  have keys : ∀ record, sortKey shape (grouping.map Grouping.toSorting ++ sort) record
      = tupleAt shape grouping record ++ sortKey shape sort record := by
    intro record
    rw [sortKey, List.map_append, List.map_map]
    rfl
  have turns : (grouping.map Grouping.toSorting).map Sorting.desc = grouping.map Grouping.desc := by
    rw [List.map_map]
    rfl
  rw [sortOrder, List.map_append, turns, keys, keys,
    Sorting.compareKeys_append (by simp [tupleAt]) (by simp [tupleAt])]
  rfl

/-- The records that match, sorted stably by exact values. -/
theorem load_sorted {s : Store} {predicate : Predicate} {sort : List Sorting}
    (conform : ∀ r ∈ s.records, s.shape.conforms r = true)
    (exact : ∀ k ∈ sort, s.shape.PathIs FieldType.isExact k.selector)
    (h : s.load false { PageQuery.all predicate with sort := sort } = .ok records) :
    ∃ found, select predicate s.records = .ok found
      ∧ Sorting.StablySorted (sortOrder s.shape sort) found records := by
  obtain ⟨found, sorter, sorted, hselect, hsorter, hsort, rfl⟩ := load_eq_ok.1 h
  have conform : ∀ r ∈ found, s.shape.conforms r = true := fun r hr =>
    conform r ((sublist_of_select hselect).mem hr)
  obtain ⟨descs, reads⟩ := keyOf_resolved hsorter exact
  have levels : sorter.keys.length = sort.length := by
    simpa using congrArg List.length descs
  have sorts := Sorter.stablySorted_sort hsort (fun r hr => reads r (conform r hr))
    (fun r hr => levels ▸ isTuple_sortKey exact (conform r hr))
  simp only [Sorter.compare, descs] at sorts
  exact ⟨found, hselect, sorts⟩

/-- Group keys and what records are sorted by, as levels of sorting. -/
theorem pathIs_grouped {P : FieldType → Bool} {grouping : List Grouping} {sort : List Sorting}
    (keys : ∀ g ∈ grouping, shape.PathIs P g.selector)
    (sorts : ∀ k ∈ sort, shape.PathIs P k.selector) :
    ∀ k ∈ grouping.map Grouping.toSorting ++ sort, shape.PathIs P k.selector := by
  rw [List.forall_mem_append]
  refine ⟨fun k hk => ?_, sorts⟩
  obtain ⟨g, hg, rfl⟩ := List.mem_map.1 hk
  exact keys g hg

/-- Records that are sorted by their group keys first are in the order of these. -/
theorem load_grouped {s : Store} {predicate : Predicate} {grouping : List Grouping}
    {sort : List Sorting} (conform : ∀ r ∈ s.records, s.shape.conforms r = true)
    (keys : ∀ g ∈ grouping, s.shape.PathIs FieldType.isExact g.selector)
    (exact : ∀ k ∈ sort, s.shape.PathIs FieldType.isExact k.selector)
    (h : s.load false { PageQuery.all predicate with
      sort := grouping.map Grouping.toSorting ++ sort } = .ok records) :
    ∃ found, select predicate s.records = .ok found ∧ records.Perm found
      ∧ records.Pairwise fun a b => (Sorting.compareKeys (grouping.map Grouping.desc)
        (tupleAt s.shape grouping a) (tupleAt s.shape grouping b)).isLE := by
  obtain ⟨found, hselect, sorts⟩ := load_sorted conform (pathIs_grouped keys exact) h
  refine ⟨found, hselect, sorts.perm, sorts.sorted.imp fun {a b} h => ?_⟩
  -- what is in the order of all keys is in that of the first of them
  rw [sortOrder_grouped, Ordering.isLE_then_iff_and] at h
  exact h.1

end Store

namespace Loader

variable {store : Store} {config : LoaderSettings} {o : LoadRequest}

/-- The records that match the criteria of a request. -/
def matching (store : Store) (config : LoaderSettings) (o : LoadRequest)
    (registry : Option Registry) : Except (LoadFailure StoreError) (List Value) := do
  let l := overStore store config
  let predicate ← ((l.predicateOf o (l.settings o)).run.run ⟨false, [], registry⟩).1
  (store.selected false predicate).mapError .backend

/-- A request that can be put together from parts of the records. -/
structure Mergeable (shape : Shape) (o : LoadRequest) : Prop where
  /-- innermost groups are shown without their rows -/
  collapsed : o.group = [] ∨ o.innermostCollapsed = true
  /-- group keys are exact values -/
  keys : ∀ g ∈ o.group, shape.PathIs FieldType.isExact g.selector
  /-- records are sorted by exact values -/
  sort : ∀ s ∈ o.sort, shape.PathIs FieldType.isExact s.selector
  /-- summaries are counts, sums and averages of integers, and extremes of exact values -/
  splits : ∀ s ∈ o.totalSummary ++ o.groupSummary, s.Splits shape

/-- The sums over the records with the same group keys stay within a word. -/
def SumsFit (shape : Shape) (o : LoadRequest) (records : List Value) : Prop :=
  ∀ s ∈ o.totalSummary ++ o.groupSummary, ∀ r ∈ records,
    s.SumFits shape (classOf (tupleAt shape o.group) records (tupleAt shape o.group r))

instance (shape : Shape) (o : LoadRequest) (records : List Value) :
    Decidable (SumsFit shape o records) :=
  inferInstanceAs (Decidable (∀ _ ∈ _, ∀ _ ∈ _, Summary.SumFits _ _ _))

variable {predicate : Predicate} {records : List Value} {r : LoadAnswer}

/-- Work on records that succeeded resolved the keys and the summaries. -/
theorem summarized_eq_ok {shape : Shape} {total group : List Summary} {paths : List String}
    {build : List Accessor → Except ReadError (Subtree Value)}
    {result : Subtree Value × Option (List Value)}
    (h : summarized shape true total group paths build = .ok result) :
    (∃ keys, paths.mapM (Accessor.ofPath shape true) = .ok keys)
      ∧ ∃ rollup, Rollup.rollupOf shape true total group = .ok rollup := by
  obtain ⟨keys, hkeys, h⟩ := Outcome.bind_eq_ok.1 h
  obtain ⟨data, -, h⟩ := Outcome.bind_eq_ok.1 h
  obtain ⟨rollup, hrollup, -⟩ := Outcome.bind_eq_ok.1 h
  exact ⟨⟨keys, Outcome.mapError_eq_ok.1 hkeys⟩, rollup, Outcome.mapError_eq_ok.1 hrollup⟩

theorem ready_of_rollupOf {shape : Shape} {total group : List Summary}
    (h : ∃ rollup, Rollup.rollupOf shape true total group = .ok rollup)
    (splits : ∀ s ∈ total ++ group, s.Splits shape) : Ready shape total ∧ Ready shape group := by
  obtain ⟨rollup, h⟩ := h
  obtain ⟨htotal, hgroup⟩ := Rollup.rollupOf_eq_ok.1 h
  rw [List.forall_mem_append] at splits
  exact ⟨⟨splits.1, resolve_of_measures htotal⟩, ⟨splits.2, resolve_of_measures hgroup⟩⟩

/-- The store groups the records that match. -/
theorem grouped_of_ok {s : Settings} (guards : s.guardNulls = true) {grouping : List Grouping}
    {total group : List Summary} {found : List Value} {result : Regrouped}
    (hselect : Store.select predicate store.records = .ok found)
    (conform : ∀ r ∈ found, store.shape.conforms r = true)
    (hkeys : ∃ keys, grouping.mapM (fun g => Accessor.ofPath store.shape true g.selector)
      = .ok keys)
    (exact : ∀ g ∈ grouping, store.shape.PathIs FieldType.isExact g.selector)
    (htotal : Ready store.shape total) (hgroup : Ready store.shape group)
    (hresult : Projection.regrouped store.shape true
      (flatRows store.shape grouping (planOf grouping.length total group) found) grouping.length
      total group = .ok result) :
    grouped store predicate grouping total group s
      = .ok (result, (planOf grouping.length total group).countPosition) := by
  have planned := Projection.planned?_eq_ok.2 ⟨htotal.2, hgroup.2,
    (rfl : planOf grouping.length total group = _)⟩
  have projected := Store.project_eq hselect conform hkeys exact htotal hgroup
  simp only [grouped, guards, planned, Except.mapError, bind, Except.bind, projected, hresult]
  rfl

/-- Totals of records are those of their flat row. -/
theorem totalsOf_remote {s : Settings} (guards : s.guardNulls = true)
    (sound : Sound store.shape store.records)
    (splits : ∀ s ∈ o.totalSummary, s.Splits store.shape)
    (fits : ∀ found, Store.select predicate store.records = .ok found →
      ∀ s ∈ o.totalSummary, s.SumFits store.shape found)
    {totals : Option (List Value)} (h : totalsOf store o predicate s false = .ok totals) :
    totalsOf store o predicate s true = .ok totals := by
  rw [totalsOf] at h ⊢
  split at h
  next none => rw [if_pos none]; exact h
  next some =>
    rw [if_neg some, if_pos rfl]
    simp only [Bool.false_eq_true, if_false] at h
    obtain ⟨records, hrecords, h⟩ := Outcome.bind_eq_ok.1 h
    obtain ⟨⟨data, totals'⟩, hsummarized, h⟩ := Outcome.bind_eq_ok.1 h
    cases h
    have hselect := Store.load_all (Outcome.mapError_eq_ok.1 hrecords)
    have hsummarized := Outcome.mapError_eq_ok.1 hsummarized
    rw [guards] at hsummarized
    have sound := sound.sublist (Store.sublist_of_select hselect)
    obtain ⟨-, hrollup⟩ := summarized_eq_ok hsummarized
    rw [summarized_records hrollup splits sound] at hsummarized
    cases hsummarized
    obtain ⟨ready, nothing⟩ := ready_of_rollupOf hrollup (by simpa using splits)
    have result := regrouped_records ready sound (fits _ hselect)
    have grouped := grouped_of_ok guards hselect sound.conform ⟨[], rfl⟩
      (fun g hg => absurd hg List.not_mem_nil) ready nothing result
    rw [grouped]
    rw [Summary.overAll, if_neg some]
    rfl

theorem recordPageOf_remote {s : Settings} (guards : s.guardNulls = true)
    (sound : Sound store.shape store.records)
    (splits : ∀ s ∈ o.totalSummary, s.Splits store.shape)
    (fits : ∀ found, Store.select predicate store.records = .ok found →
      ∀ s ∈ o.totalSummary, s.SumFits store.shape found)
    (h : recordPageOf store config o predicate s false = .ok r) :
    recordPageOf store config o predicate s true = .ok r := by
  obtain ⟨totals, htotals, h⟩ := Outcome.bind_eq_ok.1 h
  exact Outcome.bind_eq_ok.2 ⟨totals, totalsOf_remote guards sound splits fits htotals, h⟩

/-- The groups of records, once collapsed, are those of their flat rows. -/
theorem groupsOfBackendOf_of_groupsHereOf {s : Settings} (guards : s.guardNulls = true)
    (sound : Sound store.shape store.records) (mergeable : Mergeable store.shape o)
    (grouped : o.group ≠ [])
    (fits : ∀ found, Store.select predicate store.records = .ok found →
      SumsFit store.shape o found)
    (h : groupsHereOf store config o predicate s = .ok r) :
    groupsOfBackendOf store config o predicate s = .ok r := by
  obtain ⟨collapsed, keys, sort, splits⟩ := mergeable
  have collapsed := collapsed.resolve_left grouped
  obtain ⟨records, hrecords, h⟩ := Outcome.bind_eq_ok.1 h
  obtain ⟨⟨data, totals⟩, hsummarized, h⟩ := Outcome.bind_eq_ok.1 h
  have hsummarized := Outcome.mapError_eq_ok.1 hsummarized
  rw [guards] at hsummarized
  obtain ⟨found, hselect, perm, sorted⟩ :=
    Store.load_grouped sound.conform keys sort (Outcome.mapError_eq_ok.1 hrecords)
  have sound := sound.sublist (Store.sublist_of_select hselect)
  obtain ⟨hkeys, hrollup⟩ := summarized_eq_ok hsummarized
  rw [mapM_selector] at hkeys
  obtain ⟨htotal, hgroup⟩ := ready_of_rollupOf hrollup splits
  obtain ⟨gs, here, outlined⟩ :=
    summarized_groups grouped hkeys keys hrollup splits (sound.perm perm)
  rw [here] at hsummarized
  cases hsummarized
  obtain ⟨flat, result, outlined'⟩ :=
    regrouped_groups keys sound grouped htotal hgroup (fits found hselect) perm sorted
  have backend := grouped_of_ok guards hselect sound.conform hkeys keys htotal hgroup result
  have counted : (Int64.ofInt records.length).toInt = records.length :=
    Integer.toInt_ofInt_of_fits (sound.perm perm).length
  simp only [groupsOfBackendOf, backend, bind, Except.bind, Option.getD_some, outlined',
    Except.mapError, counted]
  rw [← h]
  simp only [collapsed, if_true, outlined]

/-- Without group keys all records have the same. -/
theorem sumFits_of_ungrouped {shape : Shape} {found : List Value} (ungrouped : o.group = [])
    (fits : SumsFit shape o found) {s : Summary} (hs : s ∈ o.totalSummary ++ o.groupSummary) :
    s.SumFits shape found := by
  have all : ∀ t, classOf (tupleAt shape []) found (tupleAt shape [] t) = found := fun t =>
    List.filter_eq_self.2 fun _ _ => rfl
  cases found with
  | nil => exact fun _ => (⟨by decide, by decide⟩ : Integer.Fits 0)
  | cons r rest =>
    have here := fits s hs r List.mem_cons_self
    rwa [ungrouped, all] at here

theorem answer_groupingRemotely (on : Bool) :
    answer store config { o with remoteGrouping := some on } predicate
      = if o.isCountQuery then do
          let n ← (store.count false predicate).mapError .backend
          return { LoadAnswer.ofData (.records []) with totalCount := n }
        else if !o.isGrouped then
          recordPageOf store config o predicate ((overStore store config).settings o) on
        else if on && o.innermostCollapsed then
          groupsOfBackendOf store config o predicate ((overStore store config).settings o)
        else groupsHereOf store config o predicate ((overStore store config).settings o) := rfl

/-- A request has the answer that is formed here if the store is left to group. -/
theorem serve_groupingRemotely {registry : Option Registry}
    (sound : Sound store.shape store.records) (mergeable : Mergeable store.shape o)
    (fits : ∀ found, matching store config o registry = .ok found → SumsFit store.shape o found)
    (here : ((overStore store config).serve { o with remoteGrouping := some false } false
      registry).1 = .ok r) :
    ((overStore store config).serve { o with remoteGrouping := some true } false registry).1
      = .ok r := by
  rw [serve_eq] at here ⊢
  obtain ⟨predicate, hpredicate, here⟩ := Outcome.bind_eq_ok.1 here
  refine Outcome.bind_eq_ok.2 ⟨predicate, hpredicate, ?_⟩
  have fits : ∀ found, Store.select predicate store.records = .ok found →
      SumsFit store.shape o found := fun found hselect =>
    fits found (Outcome.bind_eq_ok.2 ⟨predicate, hpredicate,
      Outcome.mapError_eq_ok.2 (Store.selected_eq_ok.2 hselect)⟩)
  have guards : ((overStore store config).settings o).guardNulls = true := rfl
  rw [answer_groupingRemotely] at here ⊢
  -- the four ways of a request: a count, records, and groups of either kind
  by_cases counts : o.isCountQuery = true
  · rw [if_pos counts] at here ⊢
    exact here
  rw [if_neg counts] at here ⊢
  by_cases grouped : o.group = []
  · have ungrouped : (!o.isGrouped) = true := by simp [LoadRequest.isGrouped, grouped]
    rw [if_pos ungrouped] at here ⊢
    refine recordPageOf_remote guards sound
      (fun s hs => mergeable.splits s (List.mem_append_left _ hs))
      (fun found hselect s hs => ?_) here
    exact sumFits_of_ungrouped grouped (fits found hselect) (List.mem_append_left _ hs)
  · have isGrouped : ¬(!o.isGrouped) = true := by simpa [LoadRequest.isGrouped] using grouped
    have collapsed := mergeable.collapsed.resolve_left grouped
    rw [if_neg isGrouped] at here ⊢
    rw [if_neg (by simp)] at here
    rw [if_pos (by simp [collapsed])]
    exact groupsOfBackendOf_of_groupsHereOf guards sound mergeable grouped fits here

/-- Orders by town, with totals and summaries of both halves of the work: sums and averages,
extremes and counts, over nulls too. -/
theorem serve_groupingRemotely_orders :
    let shape := Shape.mk "Order" [.mk "town" .string true, .plain "size" .int32,
      .mk "paid" .int64 true]
    let order (town : Value) (size : Int64) (paid : Value) :=
      Value.object [("town", town), ("size", .int size), ("paid", paid)]
    let store : Store := ⟨shape, [order (.string "Ulm") 3 (.int 40), order .null 1 .null,
      order (.string "Bonn") 2 (.int 7), order (.string "Ulm") 5 .null, order .null 9 (.int 1)]⟩
    let o : LoadRequest := { LoadRequest.everything with
      take := some 2, requireTotalCount := true, requireGroupCount := true,
      filter := some (.array [.string "size", .string "<", .int 9])
      sort := [.on "size"], group := [(Grouping.on "town").descending.collapsed]
      totalSummary := [⟨some "paid", .avg⟩, ⟨some "town", .max⟩]
      groupSummary := [⟨some "paid", .sum⟩, ⟨some "size", .min⟩, .rows] }
    ∃ r, ((overStore store .standard).serve { o with remoteGrouping := some false } false none).1
        = .ok r
      ∧ ((overStore store .standard).serve { o with remoteGrouping := some true } false none).1
        = .ok r := by
  intro shape order store o
  have sound : Sound store.shape store.records := ⟨by decide +kernel, by decide +kernel⟩
  have mergeable : Mergeable store.shape o :=
    ⟨.inr rfl, by decide +kernel, by decide +kernel, by decide +kernel⟩
  have fits : ((matching store .standard o none).toOption.all fun found =>
      decide (SumsFit store.shape o found)) = true := by decide +kernel
  have served : (((overStore store .standard).serve { o with remoteGrouping := some false } false
      none).1.toOption.isSome) = true := by decide +kernel
  clear_value o store
  generalize hr : ((overStore store .standard).serve { o with remoteGrouping := some false } false
    none).1 = here at served
  rcases here with _ | r
  · cases served
  · refine ⟨r, rfl, serve_groupingRemotely (o := o) sound mergeable (fun found hfound => ?_) hr⟩
    rw [hfound] at fits
    exact of_decide_eq_true fits

end Loader

end DataGrid
