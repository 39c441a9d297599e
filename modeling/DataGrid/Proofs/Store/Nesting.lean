import DataGrid.Proofs.Grouping.Places
import DataGrid.Proofs.Loader.GroupsHere
import DataGrid.Proofs.Store.Tables

/-!
# Grouping level by level, and at once

`Grouping.byLevels` groups by one key after another, and `Store.buckets` collects by the tuple of
all keys. Both give the classes of the records by these tuples (`Grouping.classesOf_byLevels`,
`Store.classesOf_buckets`), so innermost groups and buckets match one to one.

If each bucket is put down as one flat row with its keys, grouping the rows level by level gives
back the innermost groups, with one row each (`Store.levels_match_buckets`).
-/

namespace DataGrid

open Store (sameTuple sameTuple_equivalence keyIn)
open Subtree (placesUnder)

/-- A row with a key for every level has these keys at its levels. -/
theorem Row.get_of_keys {levels : Nat} {row : Row} (deep : (row.keys levels).length = levels)
    {level : Nat} (below : level < levels) :
    row.get (level + 1) = .ok (keyIn (row.keys levels) level) := by
  have cell : (row.keys levels)[level]? = row.values[level + 1]? := by
    rw [keys, List.getElem?_take_of_lt below, List.getElem?_drop, Nat.add_comm]
  rw [get, keyIn, ← cell, List.getElem?_eq_getElem (deep.symm ▸ below)]
  rfl

/-- Grouping rows of known tuples level by level gives the classes of the rows by their tuples. -/
theorem Grouping.classesOf_byLevels {α ε : Type} {keyOf : α → Nat → Except ε Value}
    {tuple : α → List Value} {levels : Nat} (positive : 0 < levels) {rows : List α}
    (deep : ∀ row ∈ rows, (tuple row).length = levels)
    (read : ∀ row ∈ rows, ∀ level < levels, keyOf row level = .ok (keyIn (tuple row) level)) :
    ∃ groups, byLevels keyOf levels rows = .ok groups
      ∧ Bucket.ClassesOf sameTuple tuple rows (placesUnder [] groups) := by
  refine ⟨_, byLevels_of_keys positive read, classesOf_tree fun path full row hrow => ?_⟩
  have full : path.length = (tuple row).length := by
    rw [deep row hrow]
    omega
  exact Store.onPath_keyIn tuple full

/-- Flat rows of which no two have the same keys, and all have a key for every level, are grouped
into one innermost group each. -/
theorem Projection.exists_regrouped {levels : Nat} (positive : 0 < levels) {rows : List Row}
    (deep : ∀ row ∈ rows, (row.keys levels).length = levels)
    (apart : (rows.map (Row.keys levels)).Pairwise fun t u => sameTuple t u = false) :
    ∃ regrouped, Grouping.byLevels keyAt levels rows = .ok regrouped
      ∧ Bucket.Matching sameTuple (placesUnder [] regrouped)
        (rows.map fun row => (row.keys levels, [row])) := by
  obtain ⟨regrouped, grouped, classes⟩ := Grouping.classesOf_byLevels positive deep
    fun row hrow level below => Row.get_of_keys (deep row hrow) below
  exact ⟨regrouped, grouped, classes.matching sameTuple_equivalence
    (.singletons sameTuple_equivalence apart)⟩

namespace Store

variable {keys : List Accessor} {tuple : Value → List Value} {records : List Value}

/-- The buckets of records are their classes by the tuples of their keys, and have tuples of
records. -/
theorem classesOf_buckets (keyed : keys ≠ []) (grouping : List Grouping)
    (read : ∀ record ∈ records, keys.mapM (·.read record) = .ok (tuple record)) :
    ∃ found, buckets keys grouping records = .ok found
      ∧ Bucket.ClassesOf sameTuple tuple records found
      ∧ ∀ t ∈ found.map Prod.fst, ∃ record ∈ records, tuple record = t := by
  have found : buckets keys grouping records = _ := buckets_eq read
  rw [List.isEmpty_eq_false_iff.2 keyed] at found
  refine ⟨_, found, ?_, ?_⟩
  · constructor
    case apart =>
      rw [List.map_map]
      simpa [Function.comp_def] using pairwise_apart_orderedTuples
    case members =>
      intro b hb
      obtain ⟨t, -, rfl⟩ := List.mem_map.1 hb
      rfl
    case nonempty =>
      intro b hb
      obtain ⟨t, ht, rfl⟩ := List.mem_map.1 hb
      exact List.ne_nil_of_length_pos (length_classOf_pos ht)
    case whole =>
      intro record hrecord
      obtain ⟨t, ht, same⟩ := Bucket.exists_mem_firsts sameTuple_equivalence
        (List.mem_map_of_mem (f := tuple) hrecord)
      exact ⟨_, List.mem_map_of_mem (orderedTuples_perm_firsts.mem_iff.2 ht), same⟩
  · intro t ht
    rw [List.map_map] at ht
    obtain ⟨u, hu, rfl⟩ := List.mem_map.1 ht
    obtain ⟨record, first, same⟩ := find?_of_mem_orderedTuples hu
    exact ⟨record, List.mem_of_find?_eq_some first, same⟩

/-- If the keys of all records can be read, grouping level by level and collecting by the tuples of
keys succeed. The innermost groups and the buckets match one to one: the keys on the path are the
tuple, and the rows are the same in the same order. Flat rows with the keys of the buckets, one for
each, are grouped level by level into a tree with the same paths, with one row in every innermost
group. -/
theorem levels_match_buckets (keyed : keys ≠ []) (grouping : List Grouping)
    (read : ∀ record ∈ records, ∀ key ∈ keys, ∃ v, key.read record = .ok v) :
    ∃ groups found,
      Grouping.byLevels (Loader.keyAt keys) keys.length records = .ok groups
        ∧ buckets keys grouping records = .ok found
        ∧ Bucket.Matching sameTuple (placesUnder [] groups) found
        ∧ ∀ rows : List Row, rows.map (Row.keys keys.length) = found.map Prod.fst →
          ∃ regrouped, Grouping.byLevels Projection.keyAt keys.length rows = .ok regrouped
            ∧ Multiset.Rel (sameTuple · · = true)
              ((placesUnder [] groups).map Prod.fst : List (List Value))
              ((placesUnder [] regrouped).map Prod.fst : List (List Value))
            ∧ Bucket.Matching sameTuple (placesUnder [] regrouped)
              (rows.map fun row => (row.keys keys.length, [row])) := by
  have positive : 0 < keys.length := List.length_pos_of_ne_nil keyed
  -- the tuples that are read, and any where there are none
  let tuple (record : Value) : List Value :=
    (keys.mapM fun key : Accessor => key.read record).toOption.getD []
  have tuples : ∀ record ∈ records, keys.mapM (·.read record) = .ok (tuple record) := by
    intro record hrecord
    obtain ⟨t, ht⟩ := Outcome.exists_mapM_eq_ok (read record hrecord)
    simp only [tuple, ht]
    rfl
  have deep : ∀ record ∈ records, (tuple record).length = keys.length := fun record hrecord =>
    (Outcome.mapM_eq_ok.1 (tuples record hrecord)).length_eq.symm
  obtain ⟨groups, grouped, nested⟩ := Grouping.classesOf_byLevels positive deep
    fun record hrecord level _ => Loader.keyAt_eq (tuples record hrecord) level
  obtain ⟨found, bucketed, flat, ofRecord⟩ := classesOf_buckets keyed grouping tuples
  have matching := nested.matching sameTuple_equivalence flat
  refine ⟨groups, found, grouped, bucketed, matching, fun rows carried => ?_⟩
  have full : ∀ row ∈ rows, (row.keys keys.length).length = keys.length := by
    intro row hrow
    obtain ⟨record, hrecord, keys_eq⟩ := ofRecord (row.keys keys.length)
      (carried ▸ List.mem_map_of_mem hrow)
    rw [← keys_eq]
    exact deep record hrecord
  obtain ⟨regrouped, again, single⟩ :=
    Projection.exists_regrouped positive full (carried ▸ flat.apart)
  refine ⟨regrouped, again, ?_, single⟩
  -- both trees have the keys of the buckets on their paths
  have keys_eq : (rows.map fun row => (row.keys keys.length, [row])).map Prod.fst
      = found.map Prod.fst := by
    rw [← carried, List.map_map]
    rfl
  exact Bucket.rel_trans sameTuple_equivalence matching.keys
    (Bucket.rel_symm sameTuple_equivalence (keys_eq ▸ single.keys))

/-- Keys of two kinds that are the same, a null and `NaN`: three buckets, in another order than the
groups. -/
theorem levels_match_buckets_mixed :
    let member (name : String) : Accessor := {
      path := name
      steps := [.member name .dynamic true]
      type := .dynamic
      nullable := true
      guardsNulls := false }
    let keys := [member "size", member "mark"]
    let grouping := [Grouping.on "size", Grouping.on "mark"]
    let record (size mark : Value) := Value.object [("mark", mark), ("size", size)]
    let one := Value.float (Binary64.ofInt 1)
    let nan := Value.float Binary64.nan
    let records := [record (.int 1) nan, record one nan, record .null one, record one (.string "x")]
    let row (size mark : Value) : Row := ⟨[.null, size, mark]⟩
    let rows := [row .null one, row (.int 1) nan, row one (.string "x")]
    let paths := [[.int 1, nan], [.int 1, .string "x"], [.null, one]]
    keys ≠ [] ∧ (∀ record ∈ records, ∀ key ∈ keys, ∃ v, key.read record = .ok v)
      ∧ ∃ groups found regrouped,
        Grouping.byLevels (Loader.keyAt keys) keys.length records = .ok groups
          ∧ buckets keys grouping records = .ok found
          ∧ rows.map (Row.keys keys.length) = found.map Prod.fst
          ∧ Grouping.byLevels Projection.keyAt keys.length rows = .ok regrouped
          ∧ (placesUnder [] groups).map Prod.fst = paths
          ∧ Bucket.Matching sameTuple (placesUnder [] groups) found
          ∧ Bucket.Matching sameTuple (placesUnder [] regrouped)
            (rows.map fun row => (row.keys keys.length, [row])) := by
  intro member keys grouping record one nan records row rows paths
  have keyed : keys ≠ [] := List.cons_ne_nil _ _
  have read : ∀ record ∈ records, ∀ key ∈ keys, ∃ v, key.read record = .ok v := by
    simp only [records, keys, List.forall_mem_cons, List.not_mem_nil, false_implies, implies_true,
      and_true]
    exact ⟨⟨⟨_, rfl⟩, ⟨_, rfl⟩⟩, ⟨⟨_, rfl⟩, ⟨_, rfl⟩⟩, ⟨⟨_, rfl⟩, ⟨_, rfl⟩⟩, ⟨_, rfl⟩, ⟨_, rfl⟩⟩
  obtain ⟨groups, found, grouped, bucketed, matching, regroup⟩ :=
    levels_match_buckets keyed grouping read
  have tuples : (buckets keys grouping records).toOption.map (·.map Prod.fst)
      = some (rows.map (Row.keys keys.length)) := by rfl
  rw [bucketed] at tuples
  have carried : rows.map (Row.keys keys.length) = found.map Prod.fst :=
    (Option.some.inj tuples).symm
  have lead : (Grouping.byLevels (Loader.keyAt keys) keys.length records).toOption.map
      (fun groups => (placesUnder [] groups).map Prod.fst) = some paths := by rfl
  rw [grouped] at lead
  obtain ⟨regrouped, again, -, single⟩ := regroup rows carried
  exact ⟨keyed, read, groups, found, regrouped, grouped, bucketed, carried, again,
    Option.some.inj lead, matching, single⟩

end Store

end DataGrid
