import DataGrid.Proofs.Grouping.Siblings
import DataGrid.Proofs.Loader.DrillDown

/-!
# Groups in order

Nothing in grouping sorts: that groups come out in the order of their keys is left to the sorting of
the records by the group keys first. Over a store, if what a request groups and sorts by is exact,
the groups that are formed here are `Arranged` (`Loader.serve_arranged`):

* siblings stand in strict order of their keys, reversed on a level that descends, nulls smallest;
* under an innermost group stand its records, sorted stably as the request says;
* every record that matches is in exactly one innermost group;
* an innermost group counts its records, whether they are shown or not.
-/

namespace DataGrid

open Grouping (onPath keysAt)
open Sorting (StablySorted)
open Store (tupleAt keyOf sortOrder)
open Subtree (At leavesUnder)

/-- The records on a path of group keys. -/
def membersOf (shape : Shape) (grouping : List Grouping) (found : List Value) (path : List Value) :
    List Value :=
  found.filter (onPath (keyOf (tupleAt shape grouping)) path)

/-- Groups of records as a request wants them arranged. -/
structure Arranged (shape : Shape) (o : LoadRequest) (found : List Value)
    (gs : List (Group Value)) : Prop where
  /-- siblings stand in strict order of their keys, reversed on a level that descends -/
  siblings : ∀ path gs', At (.groups gs) path (.groups gs') → ∃ g, o.group[path.length]? = some g
    ∧ gs'.Pairwise fun a b => a.key.order b.key = if g.desc then .gt else .lt
  /-- null comes before all other keys, or after them -/
  nulls : ∀ path gs', At (.groups gs) path (.groups gs') → ∀ g, o.group[path.length]? = some g →
    ∀ n ∈ gs', n.key = .null → (if g.desc then gs'.getLast? else gs'.head?) = some n
  /-- under innermost groups stand their records, unless these are dropped -/
  rows : ∀ leaf ∈ leavesUnder [] gs,
    if o.innermostCollapsed then At (.groups gs) leaf.path .dropped
    else ∃ rows, At (.groups gs) leaf.path (.rows rows)
      ∧ StablySorted (sortOrder shape o.sort) (membersOf shape o.group found leaf.path) rows
  /-- innermost groups have a key for every level and count their records -/
  counted : ∀ leaf ∈ leavesUnder [] gs, leaf.path.length = o.group.length
    ∧ leaf.count = some (membersOf shape o.group found leaf.path).length
  /-- every record is in exactly one of them -/
  once : ∀ record ∈ found, (leavesUnder [] gs).countP
    (fun leaf => onPath (keyOf (tupleAt shape o.group)) leaf.path record) = 1

namespace Loader

variable {store : Store} {config : LoaderSettings} {o : LoadRequest} {predicate : Predicate}
variable {r : LoadAnswer} {xs found : List Value} {gs : List (Group Value)}

/-- What stands at a place of the groups that are shown is what stood there, perhaps without
rows. -/
theorem place_of_shown {path : List Value} {u : Subtree Value}
    (place : At (.groups (o.shown gs)) path u) :
    ∃ u', At (.groups gs) path u' ∧ u = if o.innermostCollapsed then u'.dropRows else u' := by
  rw [LoadRequest.shown] at place
  cases collapsed : o.innermostCollapsed with
  | false =>
    rw [collapsed] at place
    exact ⟨u, place, rfl⟩
  | true =>
    rw [collapsed] at place
    exact Subtree.maps_dropRows.exists_at place

/-- The keys of groups that are shown are the first keys of the records on their path. -/
theorem Formed.keys (formed : Formed store config o predicate r xs gs) {path : List Value}
    {gs' : List (Group Value)} (place : At (.groups (o.shown gs)) path (.groups gs')) :
    path.length ≤ o.group.length - 1 ∧ gs'.map Group.key
      = keysAt (keyOf (tupleAt store.shape o.group)) path.length
        (membersOf store.shape o.group xs path) := by
  obtain ⟨u, place, h⟩ := place_of_shown place
  split at h
  · obtain ⟨siblings, rfl⟩ := Subtree.maps_dropRows.exists_groups h.symm
    rw [Subtree.maps_dropRows.map_key h.symm]
    exact Grouping.keys_of_bare formed.bare place
  · cases h
    exact Grouping.keys_of_bare formed.bare place

/-- Under the innermost groups that are shown stand the records on their path, or nothing. -/
theorem Formed.rows (formed : Formed store config o predicate r xs gs) {leaf : Leaf}
    (hleaf : leaf ∈ leavesUnder [] (o.shown gs)) :
    At (.groups (o.shown gs)) leaf.path (if o.innermostCollapsed then .dropped
      else .rows (membersOf store.shape o.group xs leaf.path)) := by
  obtain ⟨path, u, deep, place, inner⟩ := Subtree.exists_at_of_mem_leavesUnder _ hleaf
  obtain rfl : leaf.path = path := deep
  obtain ⟨u', place', h⟩ := place_of_shown place
  have inner' : ∀ siblings, u' ≠ .groups siblings := by
    rintro siblings rfl
    split at h <;> exact inner _ h
  have whole := Grouping.rows_of_bare formed.bare place' inner'
  rw [whole] at h
  rwa [h] at place

/-! ### Order -/

/-- Records on the path of all their keys have these keys. -/
theorem tupleAt_eq_of_onPath {shape : Shape} {grouping : List Grouping}
    (keys : ∀ g ∈ grouping, shape.PathIs FieldType.isExact g.selector) {path : List Value}
    (deep : path.length = grouping.length) {a b : Value}
    (ha : shape.conforms a = true) (hb : shape.conforms b = true)
    (hpa : onPath (keyOf (tupleAt shape grouping)) path a = true)
    (hpb : onPath (keyOf (tupleAt shape grouping)) path b = true) :
    tupleAt shape grouping a = tupleAt shape grouping b := by
  have ta := Store.isTuple_tupleAt keys ha
  have tb := Store.isTuple_tupleAt keys hb
  have same := Grouping.keyIn_eq_of_onPath ta tb hpa hpb
  rw [deep, ← List.length_map Grouping.desc] at same
  exact Sorting.eq_of_keyIn ta.1 tb.1 same

/-- Records that are sorted by their group keys first are sorted by what follows these on the path
of an innermost group. -/
theorem stablySorted_membersOf {shape : Shape} {grouping : List Grouping} {sort : List Sorting}
    (conform : ∀ r ∈ found, shape.conforms r = true)
    (keys : ∀ g ∈ grouping, shape.PathIs FieldType.isExact g.selector)
    (sorted : StablySorted (sortOrder shape (grouping.map Grouping.toSorting ++ sort)) found xs)
    {path : List Value} (deep : path.length = grouping.length) :
    StablySorted (sortOrder shape sort) (membersOf shape grouping found path)
      (membersOf shape grouping xs path) := by
  refine (sorted.filter _).congr fun a ha b hb => ?_
  obtain ⟨ha, hpa⟩ := List.mem_filter.1 ha
  obtain ⟨hb, hpb⟩ := List.mem_filter.1 hb
  have tuple := Store.isTuple_tupleAt keys (conform b hb)
  -- records on the path have the same group keys
  rw [Store.sortOrder_grouped,
    tupleAt_eq_of_onPath keys deep (conform a ha) (conform b hb) hpa hpb,
    (Sorting.compareKeys_orders _).refl tuple]
  rfl

section Arranging

variable (grouped : o.group ≠ [])
variable (keys : ∀ g ∈ o.group, store.shape.PathIs FieldType.isExact g.selector)
include grouped keys

/-- Siblings formed of records that are sorted by their group keys first stand in strict order. -/
theorem Formed.siblings (formed : Formed store config o predicate r xs gs)
    (conform : ∀ r ∈ found, store.shape.conforms r = true)
    (sorted : StablySorted
      (sortOrder store.shape (o.group.map Grouping.toSorting ++ o.sort)) found xs)
    {path : List Value} {gs' : List (Group Value)}
    (place : At (.groups (o.shown gs)) path (.groups gs')) :
    ∃ g, o.group[path.length]? = some g
      ∧ gs'.Pairwise fun a b => a.key.order b.key = if g.desc then .gt else .lt := by
  obtain ⟨high, firsts⟩ := formed.keys place
  have level : path.length < o.group.length := by
    have levels := List.length_pos_of_ne_nil grouped
    omega
  refine ⟨_, List.getElem?_eq_getElem level, ?_⟩
  have desc : (o.group.map Grouping.desc)[path.length]? = some o.group[path.length].desc := by
    rw [List.getElem?_map, List.getElem?_eq_getElem level]
    rfl
  have tuples : ∀ row ∈ membersOf store.shape o.group xs path, Sorting.IsTuple
      (o.group.map Grouping.desc).length (tupleAt store.shape o.group row) := by
    intro row hrow
    have hrow := sorted.perm.mem_iff.1 (List.mem_filter.1 hrow).1
    exact Store.isTuple_tupleAt keys (conform row hrow)
  have inOrder : (membersOf store.shape o.group xs path).Pairwise fun a b =>
      (Sorting.compareKeys (o.group.map Grouping.desc) (tupleAt store.shape o.group a)
        (tupleAt store.shape o.group b)).isLE := by
    refine (sorted.sorted.filter _).imp fun {a b} le => ?_
    rw [Store.sortOrder_grouped, Ordering.isLE_then_iff_and] at le
    exact le.1
  have pairwise := Grouping.pairwise_keysAt tuples inOrder
    (fun row hrow => (List.mem_filter.1 hrow).2) desc
  rw [← firsts] at pairwise
  exact List.pairwise_map.1 pairwise

/-- Groups that are formed of records that are sorted by their group keys first are arranged. -/
theorem Formed.arranged (formed : Formed store config o predicate r xs gs)
    (conform : ∀ r ∈ found, store.shape.conforms r = true)
    (hselect : Store.select predicate store.records = .ok found)
    (sorted : StablySorted
      (sortOrder store.shape (o.group.map Grouping.toSorting ++ o.sort)) found xs) :
    Arranged store.shape o found (o.shown gs) := by
  have shows := formed.shows hselect sorted.perm
  have isLeaf := isLeaf_of_hasLeaves grouped shows.leaves
  refine ⟨fun path gs' place => formed.siblings grouped keys conform sorted place,
    fun path gs' place g hg n hn null => ?_, fun leaf hleaf => ?_,
    fun leaf hleaf => ⟨(isLeaf leaf hleaf).deep, (isLeaf leaf hleaf).counted⟩,
    fun record hrecord => countP_of_hasLeaves shows.leaves hrecord⟩
  · obtain ⟨g', hg', pairwise⟩ := formed.siblings grouped keys conform sorted place
    rw [hg] at hg'
    cases hg'
    exact Group.null_at_end pairwise hn null
  · have place := formed.rows hleaf
    split
    next collapsed => rwa [if_pos collapsed] at place
    next shown =>
      rw [if_neg shown] at place
      exact ⟨_, place, stablySorted_membersOf conform keys sorted (isLeaf leaf hleaf).deep⟩

/-- Groups that are formed here of records in memory are complete and in order: the groups of the
whole answer, of which a page is shown. -/
theorem serve_arranged {registry : Option Registry}
    (conform : ∀ r ∈ store.records, store.shape.conforms r = true)
    (sorts : ∀ s ∈ o.sort, store.shape.PathIs FieldType.isExact s.selector)
    (groups : o.isCountQuery = false)
    (here : ((overStore store config).leavesGrouping o && o.innermostCollapsed) = false)
    (served : ((overStore store config).serve o false registry).1 = .ok r) :
    ∃ found gs, matching store config o registry = .ok found
      ∧ ((overStore store config.unlimited).serve o.unpaged false registry).1
        = .ok { r with data := .groups gs }
      ∧ r.data = .groups (page o.skip (o.pageSize config.maxTake) gs)
      ∧ Arranged store.shape o found gs := by
  rw [serve_eq] at served
  obtain ⟨predicate, hpredicate, answered⟩ := Outcome.bind_eq_ok.1 served
  have guards : ((overStore store config).settings o).guardNulls = true := rfl
  rw [answer_groups_eq_ok groups grouped, here] at answered
  obtain ⟨-, answered⟩ := answered.resolve_left fun remote => Bool.false_ne_true remote.1
  obtain ⟨xs, gs, formed, whole⟩ := formed_groupsHere grouped keys guards conform answered
  obtain ⟨found, hselect, sorted⟩ :=
    Store.load_sorted conform (Store.pathIs_grouped keys sorts) formed.loaded
  have conform : ∀ r ∈ found, store.shape.conforms r = true := fun r hr =>
    conform r ((Store.sublist_of_select hselect).mem hr)
  refine ⟨found, o.shown gs, ?_, ?_, formed.shown,
    formed.arranged grouped keys conform hselect sorted⟩
  · exact Outcome.bind_eq_ok.2 ⟨predicate, hpredicate,
      Outcome.mapError_eq_ok.2 (Store.selected_eq_ok.2 hselect)⟩
  · rw [serve_eq]
    refine Outcome.bind_eq_ok.2 ⟨predicate, hpredicate, ?_⟩
    rw [answer_groups_eq_ok (o := o.unpaged) groups grouped]
    exact .inr ⟨here, whole⟩

end Arranging

/-- Visits by town, greater towns first, and by whether they were early: those without a town come
last, and two of the same size stay as they are held. -/
theorem serve_arranged_visits :
    let shape := Shape.mk "Visit" [.mk "town" .string true, .mk "early" .bool true,
      .plain "size" .int32]
    let visit (town early : Value) (size : Int64) :=
      Value.object [("town", town), ("early", early), ("size", .int size)]
    let store : Store := ⟨shape, [visit .null .null 1, visit (.string "Bonn") (.bool true) 2,
      visit (.string "Ulm") (.bool true) 3, visit (.string "Ulm") .null 2,
      visit (.string "Ulm") (.bool true) 9, visit (.string "Bonn") (.bool false) 4,
      visit (.string "Ulm") (.bool true) 3, visit .null .null 8]⟩
    let o : LoadRequest := { LoadRequest.everything with
      skip := 1, take := some 1, filter := some (.array [.string "size", .string "<", .int 9])
      sort := [(Sorting.on "size").descending]
      group := [(Grouping.on "town").descending, .on "early"] }
    ∃ (found : List Value) (gs : List (Group Value)), matching store .standard o none = .ok found
      ∧ gs.map Group.count = [some 2, some 2, some 1]
      ∧ (leavesUnder [] gs).map Leaf.count = [some 1, some 2, some 1, some 1, some 2]
      ∧ Arranged store.shape o found gs := by
  intro shape visit store o
  have conform : ∀ r ∈ store.records, store.shape.conforms r = true := by decide +kernel
  have keys : ∀ g ∈ o.group, store.shape.PathIs FieldType.isExact g.selector := by decide +kernel
  have sorts : ∀ s ∈ o.sort, store.shape.PathIs FieldType.isExact s.selector := by decide +kernel
  have counts : ((overStore store .standard).serve o.unpaged false none).1.toOption.map
      (fun r => match r.data with
        | .groups gs => (gs.map Group.count, (leavesUnder [] gs).map Leaf.count)
        | .records _ => ([], [])) = some ([some 2, some 2, some 1],
          [some 1, some 2, some 1, some 1, some 2]) := by decide +kernel
  have served : (((overStore store .standard).serve o false none).1.toOption.isSome) = true := by
    decide +kernel
  have grouped : o.group ≠ [] := List.cons_ne_nil _ _
  have groups : o.isCountQuery = false := rfl
  have here : ((overStore store .standard).leavesGrouping o && o.innermostCollapsed) = false := rfl
  clear_value o store
  generalize hr : ((overStore store .standard).serve o false none).1 = outcome at served
  rcases outcome with _ | r
  · cases served
  · obtain ⟨found, gs, matched, whole, -, arranged⟩ :=
      serve_arranged grouped keys conform sorts groups here hr
    have unlimited : LoaderSettings.standard.unlimited = .standard := rfl
    rw [unlimited] at whole
    rw [whole] at counts
    obtain ⟨outer, inner⟩ := Prod.mk.inj (Option.some.inj counts)
    exact ⟨found, gs, matched, outer, inner, arranged⟩

end Loader

end DataGrid
