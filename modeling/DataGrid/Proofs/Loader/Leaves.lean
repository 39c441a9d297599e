import DataGrid.Proofs.Grouping.Leaves
import DataGrid.Proofs.Loader.GroupsOfBackend
import DataGrid.Proofs.Store.Keys

/-!
# The innermost groups of an answer

Whether groups are formed of the records or of flat rows, shown with their rows or without: the
innermost groups of an answer are those of the records that match, whatever summaries are asked for
(`Loader.shows_of_answer`). The answer is a page of the answer to the request without a page.
-/

namespace DataGrid

open Grouping (outlineAt outline tree)
open Store (tupleAt keyOf keyIn classOf orderedTuples TellsOf)
open Subtree (leavesUnder resumAll)

/-- The request for all groups. -/
def LoadRequest.unpaged (o : LoadRequest) : LoadRequest := { o with skip := 0, take := none }

/-- The groups that a request shows, without the rows of innermost ones if these are collapsed. -/
def LoadRequest.shown (o : LoadRequest) (gs : List (Group Value)) : List (Group Value) :=
  if o.innermostCollapsed then Subtree.dropRowsOf gs else gs

/-- The settings without a greatest number of records or groups. -/
def LoaderSettings.unlimited (c : LoaderSettings) : LoaderSettings := { c with maxTake := none }

namespace Loader

/-! ### Collapsing -/

section Collapse

variable (f : Option (List Value) → Option (List Value)) (countPosition : Nat)

mutual

theorem collapse_resum : (t : Subtree Row) → {count count' : Option Nat} → {t' : Subtree Value} →
    collapse countPosition count t = .ok (t', count') →
      collapse countPosition count (t.resum f) = .ok (t'.resum f, count')
  | .groups gs, count, count', t', h => by
    rw [collapse] at h
    obtain ⟨gs', hgs, h⟩ := Outcome.bind_eq_ok.1 h
    cases h
    rw [Subtree.resum, collapse, collapseAll_resumAll gs hgs]
    rfl
  | .rows rs, count, count', t', h => by
    rw [collapse] at h
    obtain ⟨n, hn, h⟩ := Outcome.bind_eq_ok.1 h
    cases h
    rw [Subtree.resum, collapse, hn]
    rfl
  | .dropped, count, count', t', h => by
    cases h
    rfl

/-- Collapsing leaves summaries as they are. -/
theorem collapseAll_resumAll : (gs : List (Group Row)) → {gs' : List (Group Value)} →
    collapse.collapseAll countPosition gs = .ok gs' →
      collapse.collapseAll countPosition (resumAll f gs) = .ok (resumAll f gs')
  | [], gs', h => by
    cases h
    rfl
  | .mk key items count summary :: rest, gs', h => by
    rw [collapse.collapseAll] at h
    obtain ⟨⟨items', count'⟩, hitems, h⟩ := Outcome.bind_eq_ok.1 h
    obtain ⟨rest', hrest, h⟩ := Outcome.bind_eq_ok.1 h
    cases h
    rw [resumAll, collapse.collapseAll, collapse_resum items hitems,
      collapseAll_resumAll rest hrest]
    rfl

end

end Collapse

/-- Groups of flat rows that differ from their tree in summaries only, once collapsed, have the
innermost groups of the outline. -/
theorem leaves_of_collapseAll {key : Row → Nat → Value} {countPosition below : Nat}
    {gs : List (Group Row)} {gs' : List (Group Value)} {rows : List Row} (records : Row → Nat)
    (h : collapse.collapseAll countPosition gs = .ok gs')
    (bare : resumAll (fun _ => none) gs = resumAll (fun _ => none) (tree key below 0 rows))
    (counts : ∀ row ∈ rows, rowCountOf countPosition row = .ok (records row))
    (fits : (rows.map records).sum < UInt64.size) :
    leavesUnder [] gs' = leavesUnder [] (outline key (fun rows => (rows.map records).sum)
      (fun _ => none) below 0 rows : List (Group Value)) := by
  have collapsed : collapse.collapseAll countPosition (resumAll (fun _ => none)
      (Subtree.dressAll (fun _ => none) (tree key below 0 rows)))
      = .ok (outline key (fun rows => (rows.map records).sum) (fun _ => none) below 0 rows) :=
    Grouping.collapseAll_tree below 0 (fun _ _ _ _ => rfl) counts fits
  rw [Subtree.dressAll_none, ← bare, collapseAll_resumAll _ _ _ h] at collapsed
  rw [← Subtree.leavesUnder_resumAll fun _ => none, Except.ok.inj collapsed]

/-- Groups have the innermost groups of records that are some records in another order. -/
def HasLeaves (shape : Shape) (grouping : List Grouping) (found : List Value)
    (gs : List (Group Value)) : Prop :=
  ∃ xs : List Value, xs.Perm found ∧ leavesUnder [] gs
    = leavesUnder [] (outlineAt (keyOf (tupleAt shape grouping)) (fun _ => none) xs
      (grouping.length - 1) [] : List (Group Value))

/-! ### Both ways to groups -/

/-- Work on records changes nothing of their tree but summaries. -/
theorem bare_summarized {shape : Shape} {guardNulls : Bool} {total group : List Summary}
    {paths : List String} {build : List Accessor → Except ReadError (Subtree Value)}
    {result : Subtree Value × Option (List Value)}
    (h : summarized shape guardNulls total group paths build = .ok result) :
    ∃ keys data, paths.mapM (Accessor.ofPath shape guardNulls) = .ok keys
      ∧ build keys = .ok data ∧ result.1.bare = data.bare := by
  obtain ⟨keys, hkeys, h⟩ := Outcome.bind_eq_ok.1 h
  obtain ⟨data, hdata, h⟩ := Outcome.bind_eq_ok.1 h
  obtain ⟨rollup, -, h⟩ := Outcome.bind_eq_ok.1 h
  obtain ⟨⟨data', totals⟩, hrun, h⟩ := Outcome.bind_eq_ok.1 h
  cases h
  refine ⟨keys, data, Outcome.mapError_eq_ok.1 hkeys, Outcome.mapError_eq_ok.1 hdata, ?_⟩
  rw [Subtree.bare_resum, Rollup.bare_run (Outcome.mapError_eq_ok.1 hrun)]

/-- So does the work on flat rows. -/
theorem bare_regrouped {shape : Shape} {guardNulls : Bool} {rows : List Row} {levels : Nat}
    {total group : List Summary} {result : Regrouped} {gs : List (Group Row)}
    (h : Projection.regrouped shape guardNulls rows levels total group = .ok result)
    (hdata : Projection.treeOf levels rows = .ok (.groups gs)) :
    ∃ gs', result.groups = some gs'
      ∧ resumAll (fun _ => none) gs' = resumAll (fun _ => none) gs := by
  obtain ⟨-, -, data, data', totals, n, values, hdata', run, -, rfl⟩ :=
    Projection.regrouped_eq_ok h
  rw [hdata] at hdata'
  cases hdata'
  have bare := Rollup.bare_run run
  rw [← Subtree.bare_resum (Option.map (SumZeros.filledAll shape guardNulls group))] at bare
  obtain ⟨gs', hgs, bare⟩ := Subtree.groups_of_bare bare
  exact ⟨gs', by rw [hgs]; rfl, bare⟩

variable {store : Store} {config : LoaderSettings} {o : LoadRequest} {predicate : Predicate}
variable {s : Settings} {r : LoadAnswer}

/-- The keys of a grouping resolve. -/
def Resolve (shape : Shape) (grouping : List Grouping) : Prop :=
  ∃ keys, grouping.mapM (fun g => Accessor.ofPath shape true g.selector) = .ok keys

/-- An answer shows a page of groups whose innermost groups are those of the records that match. -/
structure Shows (store : Store) (config : LoaderSettings) (o : LoadRequest)
    (predicate : Predicate) (r : LoadAnswer) (found : List Value) (gs : List (Group Value)) :
    Prop where
  /-- the records that match -/
  matching : Store.select predicate store.records = .ok found
  /-- the keys resolve -/
  resolve : Resolve store.shape o.group
  /-- the innermost groups are those of these records -/
  leaves : HasLeaves store.shape o.group found gs
  /-- the answer shows a page -/
  shown : r.data = .groups (page o.skip (o.pageSize config.maxTake) gs)

/-- An answer that is formed here shows a page of the tree of sorted records, with summaries and
perhaps without rows. -/
structure Formed (store : Store) (config : LoaderSettings) (o : LoadRequest)
    (predicate : Predicate) (r : LoadAnswer) (xs : List Value) (gs : List (Group Value)) :
    Prop where
  /-- the records that match, sorted by the keys first -/
  loaded : store.load false { PageQuery.all predicate with
    sort := o.group.map Grouping.toSorting ++ o.sort } = .ok xs
  /-- the keys resolve -/
  resolve : Resolve store.shape o.group
  /-- the tree of the records, but for summaries -/
  bare : resumAll (fun _ => none) gs = resumAll (fun _ => none)
    (tree (keyOf (tupleAt store.shape o.group)) (o.group.length - 1) 0 xs)
  /-- the answer shows a page -/
  shown : r.data = .groups (page o.skip (o.pageSize config.maxTake) (o.shown gs))

/-- The innermost groups of a tree that is formed of records in another order. -/
theorem Formed.shows {xs found : List Value} {gs : List (Group Value)}
    (formed : Formed store config o predicate r xs gs)
    (hselect : Store.select predicate store.records = .ok found) (perm : xs.Perm found) :
    Shows store config o predicate r found (o.shown gs) := by
  refine ⟨hselect, formed.resolve, ⟨xs, perm, ?_⟩, formed.shown⟩
  rw [← Grouping.leaves_of_bare formed.bare, LoadRequest.shown]
  split
  · exact Subtree.leavesUnder_dropRowsOf gs []
  · rfl

variable (grouped : o.group ≠ [])
variable (exact : ∀ g ∈ o.group, store.shape.PathIs FieldType.isExact g.selector)
include grouped exact

theorem formed_groupsHere (guards : s.guardNulls = true)
    (conform : ∀ r ∈ store.records, store.shape.conforms r = true)
    (h : groupsHereOf store config o predicate s = .ok r) :
    ∃ xs gs, Formed store config o predicate r xs gs
      ∧ groupsHereOf store config.unlimited o.unpaged predicate s
        = .ok { r with data := .groups (o.shown gs) } := by
  obtain ⟨xs, hxs, h⟩ := Outcome.bind_eq_ok.1 h
  obtain ⟨⟨data, totals⟩, hsummarized, h⟩ := Outcome.bind_eq_ok.1 h
  have loaded := Outcome.mapError_eq_ok.1 hxs
  have conform : ∀ r ∈ xs, store.shape.conforms r = true := by
    intro r hr
    obtain ⟨found, sorter, sorted, hselect, -, hsort, rfl⟩ := Store.load_eq_ok.1 loaded
    have found := (Sorter.sort_perm hsort).mem_iff.1 hr
    exact conform r ((Store.sublist_of_select hselect).mem found)
  obtain ⟨keys, data', hkeys, hdata, bare⟩ := bare_summarized (Outcome.mapError_eq_ok.1 hsummarized)
  rw [guards, mapM_selector] at hkeys
  have tree := byLevels_keyAt grouped hkeys exact conform
  have hdata : (Grouping.byLevels (keyAt keys) keys.length xs).map .groups = .ok data' := hdata
  rw [tree] at hdata
  cases hdata
  obtain ⟨gs, rfl, same⟩ := Subtree.groups_of_bare bare
  cases h
  refine ⟨xs, gs, ⟨loaded, ⟨keys, hkeys⟩, same, rfl⟩, ?_⟩
  exact Outcome.bind_eq_ok.2 ⟨_, hxs, Outcome.bind_eq_ok.2 ⟨_, hsummarized, rfl⟩⟩

theorem shows_groupsHere (guards : s.guardNulls = true)
    (conform : ∀ r ∈ store.records, store.shape.conforms r = true)
    (h : groupsHereOf store config o predicate s = .ok r) :
    ∃ found gs, Shows store config o predicate r found gs
      ∧ groupsHereOf store config.unlimited o.unpaged predicate s
        = .ok { r with data := .groups gs } := by
  obtain ⟨xs, gs, formed, whole⟩ := formed_groupsHere grouped exact guards conform h
  obtain ⟨found, sorter, sorted, hselect, -, hsort, rfl⟩ := Store.load_eq_ok.1 formed.loaded
  exact ⟨found, _, formed.shows hselect (Sorter.sort_perm hsort), whole⟩

/-- Flat rows that tell of the records of their tuples have the leaves of these records. -/
theorem leaves_of_rows {rows : List Row} {plan : Projection} {flat : List Value → Row}
    {found : List Value} (sound : Sound store.shape found)
    (hrows : rows
      = (orderedTuples o.group o.group.isEmpty (tupleAt store.shape o.group) found).map flat)
    (tells : ∀ r ∈ found, TellsOf plan o.group.length (tupleAt store.shape o.group r)
      (classOf (tupleAt store.shape o.group) found (tupleAt store.shape o.group r))
      (flat (tupleAt store.shape o.group r))) :
    Projection.treeOf o.group.length rows
        = .ok (.groups (tree (rowKey o.group.length) (o.group.length - 1) 0 rows))
      ∧ ∀ gs gs', resumAll (fun _ => none) gs = resumAll (fun _ => none)
          (tree (rowKey o.group.length) (o.group.length - 1) 0 rows) →
        collapse.collapseAll plan.countPosition gs = .ok gs' →
        HasLeaves store.shape o.group found gs' := by
  have told : ∀ row ∈ rows, ∃ r ∈ found, row = flat (tupleAt store.shape o.group r) := by
    intro row hrow
    rw [hrows] at hrow
    obtain ⟨t, ht, rfl⟩ := List.mem_map.1 hrow
    obtain ⟨r, hr, rfl⟩ := (Store.mem_orderedTuples grouped exact sound.conform).1 ht
    exact ⟨r, hr, rfl⟩
  refine ⟨?_, fun gs gs' bare h => ?_⟩
  · apply treeOf_rows (List.length_pos_of_ne_nil grouped)
    intro row hrow level below
    obtain ⟨r, hr, rfl⟩ := told row hrow
    exact ⟨_, (tells r hr).keys level below⟩
  -- the records in the order of their keys, which the rows stand for
  · obtain ⟨xs, perm, stands⟩ := Store.exists_stands grouped exact sound.conform flat
    rw [← hrows] at stands
    have counts : ∀ r ∈ found, recordsOf plan (flat (tupleAt store.shape o.group r))
        = (classOf (tupleAt store.shape o.group) found (tupleAt store.shape o.group r)).length := by
      intro r hr
      rw [recordsOf, (tells r hr).count]
      rfl
    have all : (rows.map (recordsOf plan)).sum = xs.length := stands.sum_counts counts
    have counted : ∀ row ∈ rows, rowCountOf plan.countPosition row = .ok (recordsOf plan row) := by
      intro row hrow
      obtain ⟨r, hr, rfl⟩ := told row hrow
      rw [counts r hr, (tells r hr).count]
    have leaves := leaves_of_collapseAll (recordsOf plan) h bare counted
      (all ▸ (sound.perm perm).length_lt)
    have keys : ∀ r ∈ found, ∀ level,
        rowKey o.group.length (flat (tupleAt store.shape o.group r)) level
        = keyIn (tupleAt store.shape o.group r) level := by
      intro r hr level
      rcases Nat.lt_or_ge level o.group.length with below | above
      · exact rowKey_of_get below ((tells r hr).keys level below)
      · rw [rowKey, if_neg (Nat.not_lt.2 above), keyIn, List.getElem?_eq_none, Option.getD_none]
        rwa [tupleAt, List.length_map]
    refine ⟨xs, perm, ?_⟩
    rw [leaves, stands.outline_eq keys counts (fun _ _ _ _ => rfl), outlineAt,
      Grouping.filter_onPath_nil, List.length_nil]

theorem shows_groupsOfBackend (sound : Sound store.shape store.records)
    (h : groupsOfBackendOf store config o predicate s = .ok r) :
    ∃ found gs, Shows store config o predicate r found gs
      ∧ groupsOfBackendOf store config.unlimited o.unpaged predicate s
        = .ok { r with data := .groups gs } := by
  obtain ⟨⟨regrouped, countPosition⟩, hgrouped, h⟩ := Outcome.bind_eq_ok.1 h
  obtain ⟨gs, hcollapsed, h⟩ := Outcome.bind_eq_ok.1 h
  cases h
  have whole := hgrouped
  obtain ⟨plan, hplan, hgrouped⟩ := Outcome.bind_eq_ok.1 hgrouped
  obtain ⟨rows, hrows, hgrouped⟩ := Outcome.bind_eq_ok.1 hgrouped
  obtain ⟨result, hresult, hgrouped⟩ := Outcome.bind_eq_ok.1 hgrouped
  cases hgrouped
  obtain ⟨-, -, hplan⟩ := Projection.planned?_eq_ok.1 (Outcome.mapError_eq_ok.1 hplan)
  obtain ⟨found, flat, hselect, hkeys, hrows, tells⟩ :=
    Store.project_planOf hplan (Outcome.mapError_eq_ok.1 hrows) grouped sound exact
  have sound := sound.sublist (Store.sublist_of_select hselect)
  obtain ⟨hdata, leaves⟩ := leaves_of_rows grouped exact sound hrows tells
  obtain ⟨gs', hgs', bare⟩ := bare_regrouped (Outcome.mapError_eq_ok.1 hresult) hdata
  have collapsed := Outcome.mapError_eq_ok.1 hcollapsed
  rw [hgs', Option.getD_some] at collapsed
  refine ⟨found, gs, ⟨hselect, hkeys, leaves gs' gs bare collapsed, rfl⟩, ?_⟩
  exact Outcome.bind_eq_ok.2 ⟨_, whole, Outcome.bind_eq_ok.2 ⟨_, hcollapsed, rfl⟩⟩

/-- The groups of an answer have the innermost groups of the records that match. -/
theorem shows_of_answer (sound : Sound store.shape store.records) (groups : o.isCountQuery = false)
    (h : answer store config o predicate = .ok r) :
    ∃ found gs, Shows store config o predicate r found gs
      ∧ answer store config.unlimited o.unpaged predicate = .ok { r with data := .groups gs } := by
  have guards : ((overStore store config).settings o).guardNulls = true := rfl
  -- a page and a greatest number do not change the way that a request takes
  rw [answer_groups_eq_ok groups grouped] at h
  rcases h with ⟨remote, h⟩ | ⟨here, h⟩
  · obtain ⟨found, gs, shows, whole⟩ := shows_groupsOfBackend grouped exact sound h
    refine ⟨found, gs, shows, ?_⟩
    rw [answer_groups_eq_ok (o := o.unpaged) groups grouped]
    exact .inl ⟨remote, whole⟩
  · obtain ⟨found, gs, shows, whole⟩ := shows_groupsHere grouped exact guards sound.conform h
    refine ⟨found, gs, shows, ?_⟩
    rw [answer_groups_eq_ok (o := o.unpaged) groups grouped]
    exact .inr ⟨here, whole⟩

end Loader

end DataGrid
