import DataGrid.Proofs.Grouping.Partition
import DataGrid.Proofs.Planning.Layout
import DataGrid.Proofs.Sorting.Levels
import DataGrid.Proofs.Store.RowCounts

/-!
# What a projection owes to whoever asks for it

The rows that a store gives for a plan are `Tabulated` from the records that match
(`Store.tabulated_project`): they have the width of the plan, there is one for every tuple of keys,
with the keys as the first of its records has them, and they hold how many records have it. If no
key is a double, they stand in the lexicographic order of their keys. Lists and records are level
with one another but are keys of their own, so rows can be level; they stand as their first records
do.
-/

namespace DataGrid

/-- The keys of a row of a plan with so many levels. -/
def Row.keys (levels : Nat) (row : Row) : List Value := (row.values.drop 1).take levels

/-- A row has the keys that it is asked for level by level. -/
theorem Row.keys_eq {levels : Nat} {row : Row} {t : List Value} (length : t.length = levels)
    (h : ∀ level < levels, row.get (level + 1) = .ok (Store.keyIn t level)) :
    row.keys levels = t := by
  have cells : ∀ level < levels, row.values[level + 1]? = t[level]? := by
    intro level below
    have get := h level below
    rw [Row.get] at get
    split at get
    next v hv =>
      rw [hv, List.getElem?_eq_getElem (length ▸ below)]
      rw [Store.keyIn, List.getElem?_eq_getElem (length ▸ below)] at get
      exact congrArg some (Except.ok.inj get)
    next => cases get
  refine List.ext_getElem? fun level => ?_
  rw [Row.keys, List.getElem?_take]
  split
  next below => rw [List.getElem?_drop, Nat.add_comm, cells level below]
  next above => rw [List.getElem?_eq_none (by omega)]

namespace Store

open Sorting (Before Level)
open Tally (ofLength)

/-- The number of the first record whose keys are grouped together with a tuple. -/
def firstAt (tuple : Value → List Value) (records : List Value) (t : List Value) : Nat :=
  records.findIdx fun record => sameTuple t (tuple record)

/-- Flat rows tell of records by the tuples of their keys. -/
structure Tabulated (grouping : List Grouping) (plan : Projection) (tuple : Value → List Value)
    (records : List Value) (rows : List Row) : Prop where
  /-- every row has a cell for every column -/
  width : ∀ row ∈ rows, row.width = plan.width
  /-- the keys of two rows are never grouped together -/
  apart : rows.Pairwise fun a b =>
    sameTuple (a.keys grouping.length) (b.keys grouping.length) = false
  /-- every record has a row -/
  whole : ∀ record ∈ records, ∃ row ∈ rows,
    sameTuple (row.keys grouping.length) (tuple record) = true
  /-- with levels, a row has the keys of the first of its records -/
  keys : grouping ≠ [] → ∀ row ∈ rows, ∃ record,
    records.find? (fun record => sameTuple (row.keys grouping.length) (tuple record)) = some record
      ∧ tuple record = row.keys grouping.length
  /-- without levels there is one row, whether there are records or not -/
  single : grouping = [] → ∃ row, rows = [row]
  /-- a row holds how many records it has: some, with levels, and in all rows all of them -/
  counts : Integer.Fits (records.length : Int) → ∀ n, plan.columns[n]? = some .rowCount →
    ∃ ns : List Nat, List.Forall₂ (fun (row : Row) (count : Nat) =>
        (∃ c : Int64, row.get n = .ok (.int c) ∧ c.toInt = count)
          ∧ count = (classOf tuple records (row.keys grouping.length)).length) rows ns
      ∧ (grouping ≠ [] → ∀ count ∈ ns, 1 ≤ count) ∧ ns.sum = records.length
  /-- without doubles among the keys, the rows are sorted by them, and those that are level by the
  first of their records -/
  sorted : (∀ record ∈ records, ∀ key ∈ tuple record, key.isDouble = false) →
    rows.Pairwise fun a b =>
      Before (grouping.map Grouping.desc) (a.keys grouping.length) (b.keys grouping.length)
        ∨ Level (a.keys grouping.length) (b.keys grouping.length)
          ∧ firstAt tuple records (a.keys grouping.length)
            < firstAt tuple records (b.keys grouping.length)

/-! ### Tuples -/

section Tuples

variable {grouping : List Grouping} {tuple : Value → List Value} {records : List Value}
variable {keys : List Accessor} {found : List (List Value × List Value)}

/-- Buckets are found only if the keys of every record can be read. -/
theorem exists_tuple_of_buckets (h : buckets keys grouping records = .ok found) :
    ∃ tuple : Value → List Value,
      (∀ record ∈ records, keys.mapM (fun key => key.read record) = .ok (tuple record))
      ∧ found = (orderedTuples grouping keys.isEmpty tuple records).map
        fun t => (t, classOf tuple records t) := by
  let tuple (record : Value) : List Value :=
    (keys.mapM fun key : Accessor => key.read record).toOption.getD []
  have read : ∀ record ∈ records, keys.mapM (fun key => key.read record) = .ok (tuple record) := by
    obtain ⟨pairs, hpairs, -⟩ := Outcome.bind_eq_ok.1 h
    intro record hrecord
    obtain ⟨pair, -, hpair⟩ := Outcome.exists_of_mapM_eq_ok hpairs hrecord
    obtain ⟨t, ht, -⟩ := Outcome.bind_eq_ok.1 hpair
    simp only [tuple, ht]
    rfl
  rw [buckets_eq read] at h
  exact ⟨tuple, read, (Except.ok.inj h).symm⟩

/-- With levels, the tuples are those of the records, in some order. -/
theorem orderedTuples_perm_firsts : (orderedTuples grouping false tuple records).Perm
    (Bucket.firsts sameTuple (records.map tuple)) :=
  Sorting.arrange_perm _ _

/-- Every record is in the bucket of one tuple. -/
theorem sum_length_classOf
    (read : ∀ record ∈ records, keys.mapM (fun key => key.read record) = .ok (tuple record)) :
    ((orderedTuples grouping keys.isEmpty tuple records).map fun t =>
      (classOf tuple records t).length).sum = records.length := by
  have found : buckets keys grouping records = .ok _ := buckets_eq read
  have sum := sum_length_buckets found
  rwa [List.map_map] at sum

/-- No two tuples of a table are the same. -/
theorem pairwise_apart_orderedTuples {keyless : Bool} :
    (orderedTuples grouping keyless tuple records).Pairwise fun t u => sameTuple t u = false := by
  cases keyless with
  | true => exact List.pairwise_singleton _ _
  | false =>
    refine (orderedTuples_perm_firsts.pairwise_iff fun {t u} apart => ?_).2
      (Bucket.pairwise_firsts sameTuple _)
    rwa [sameTuple, Value.sameItems_comm]

/-- A tuple is that of the first record that has it. -/
theorem find?_of_mem_orderedTuples {t : List Value}
    (h : t ∈ orderedTuples grouping false tuple records) : ∃ record,
      records.find? (fun record => sameTuple t (tuple record)) = some record
        ∧ tuple record = t := by
  have first := Bucket.find?_of_mem_firsts sameTuple_equivalence (fun _ => true) tuple records
    (k := t) (by rw [List.filter_true]; exact orderedTuples_perm_firsts.mem_iff.1 h)
  simpa only [Bool.true_and] using first

/-- No bucket is empty if there are levels. -/
theorem length_classOf_pos {t : List Value}
    (h : t ∈ orderedTuples grouping false tuple records) :
    0 < (classOf tuple records t).length := by
  obtain ⟨record, hrecord, rfl⟩ :=
    Stands.tuple_of_mem_firsts (orderedTuples_perm_firsts.mem_iff.1 h)
  exact List.length_pos_of_mem (List.mem_filter.2 ⟨hrecord, sameTuple_equivalence.refl _⟩)

/-- Tuples stand in the order in which they come first. -/
theorem pairwise_firstAt (tuple : Value → List Value) (records : List Value) :
    (Bucket.firsts sameTuple (records.map tuple)).Pairwise fun t u =>
      firstAt tuple records t < firstAt tuple records u := by
  have order := Bucket.pairwise_findIdx_firsts sameTuple_equivalence (fun _ => true) tuple records
  simpa only [List.filter_true, Bool.true_and, firstAt] using order

variable (lengths : ∀ record ∈ records, (tuple record).length = grouping.length)
include lengths

/-- A tuple has a value for each level. -/
theorem length_of_mem_orderedTuples {t : List Value}
    (h : t ∈ orderedTuples grouping grouping.isEmpty tuple records) :
    t.length = grouping.length := by
  cases grouping with
  | nil => exact congrArg List.length (List.mem_singleton.1 h)
  | cons g rest =>
    obtain ⟨record, hrecord, rfl⟩ :=
      Stands.tuple_of_mem_firsts (orderedTuples_perm_firsts.mem_iff.1 h)
    exact lengths record hrecord

/-- The keys of a record are grouped together with one of the tuples. -/
theorem exists_orderedTuple {record : Value} (h : record ∈ records) :
    ∃ t ∈ orderedTuples grouping grouping.isEmpty tuple records,
      sameTuple t (tuple record) = true := by
  cases grouping with
  | nil =>
    rw [List.eq_nil_of_length_eq_zero (lengths record h)]
    exact ⟨[], List.mem_singleton_self _, rfl⟩
  | cons g rest =>
    obtain ⟨t, ht, same⟩ := Bucket.exists_mem_firsts sameTuple_equivalence
      (List.mem_map_of_mem (f := tuple) h)
    exact ⟨t, orderedTuples_perm_firsts.mem_iff.2 ht, same⟩

/-- Tuples without doubles are sorted, and those that are level by their first records. -/
theorem pairwise_orderedTuples (keyless : Bool)
    (places : ∀ record ∈ records, ∀ key ∈ tuple record, key.isDouble = false) :
    (orderedTuples grouping keyless tuple records).Pairwise fun t u =>
      Before (grouping.map Grouping.desc) t u
        ∨ Level t u ∧ firstAt tuple records t < firstAt tuple records u := by
  cases keyless with
  | true => exact List.pairwise_singleton _ _
  | false =>
    have tupleOf : ∀ t ∈ Bucket.firsts sameTuple (records.map tuple),
        Sorting.TupleOf (fun v => v.isDouble = false) (grouping.map Grouping.desc).length t := by
      intro t ht
      obtain ⟨record, hrecord, rfl⟩ := Stands.tuple_of_mem_firsts ht
      rw [List.length_map]
      exact ⟨lengths record hrecord, places record hrecord⟩
    have ahead := Sorting.pairwise_arrange_ahead
      (Sorting.compareKeys_places Value.order_places (grouping.map Grouping.desc)) tupleOf
      (pairwise_firstAt tuple records)
    refine List.Pairwise.imp_of_mem (fun {t u} ht hu h => ?_) ahead
    have ht := (tupleOf t (orderedTuples_perm_firsts.mem_iff.1 ht)).1
    have hu := (tupleOf u (orderedTuples_perm_firsts.mem_iff.1 hu)).1
    exact h.imp (Sorting.before_of_compareKeys ht hu)
      fun h => ⟨Sorting.level_of_compareKeys ht hu h.1, h.2⟩

end Tuples

/-! ### Rows -/

/-- The flat rows of a store belong to its selected records, one for each tuple. -/
theorem project_rows {s : Store} {cancelled : Bool} {q : ProjectionQuery} {rows : List Row}
    (h : s.project cancelled q = .ok rows) :
    ∃ records keys columns tuple, s.selected cancelled q.predicate = .ok records
      ∧ s.count cancelled q.predicate = .ok records.length
      ∧ q.grouping.mapM (fun g => Accessor.ofPath s.shape true g.selector) = .ok keys
      ∧ q.plan.columns.mapM (resolvedColumn s.shape) = .ok columns
      ∧ (∀ record ∈ records, keys.mapM (fun key => key.read record) = .ok (tuple record))
      ∧ List.Forall₂ (fun t row => Holds columns t (classOf tuple records t) row)
          (orderedTuples q.grouping keys.isEmpty tuple records) rows := by
  cases cancelled with
  | true => cases h
  | false =>
    obtain ⟨records, keys, columns, found, hselect, hkeys, hcolumns, hfound, hrows⟩ :=
      project_eq_ok.1 h
    obtain ⟨tuple, read, rfl⟩ := exists_tuple_of_buckets hfound
    exact ⟨records, keys, columns, tuple, selected_eq_ok.2 hselect,
      count_eq_ok.2 ⟨records, hselect, rfl⟩, hkeys, hcolumns, read,
      List.forall₂_map_left_iff.1 hrows⟩

section Rows

variable {shape : Shape} {grouping : List Grouping} {total group : List Summary}
variable {tuple : Value → List Value} {records : List Value} {keys : List Accessor}
variable {columns : List ResolvedColumn} {rows : List Row}

/-- A row of a plan is as wide as the plan. -/
theorem width_of_holds {plan : Projection} {t members : List Value} {row : Row}
    (hcolumns : plan.columns.mapM (resolvedColumn shape) = .ok columns)
    (holds : Holds columns t members row) : row.width = plan.width :=
  ((Outcome.mapM_eq_ok.1 hcolumns).length_eq.trans (Outcome.mapM_eq_ok.1 holds).length_eq).symm

/-- The number of records of a bucket, if there are not too many. -/
theorem count_of_holds {plan : Projection} {t members : List Value} {row : Row} {n : Nat}
    (hcolumns : plan.columns.mapM (resolvedColumn shape) = .ok columns)
    (holds : Holds columns t members row) (hn : plan.columns[n]? = some .rowCount)
    (fits : Integer.Fits (members.length : Int)) :
    ∃ c : Int64, row.get n = .ok (.int c) ∧ c.toInt = members.length := by
  obtain ⟨rc, v, hrc, hcell, hget⟩ := get_of_holds hcolumns holds hn
  cases hrc
  cases hcell
  exact ⟨_, hget, Integer.toInt_ofInt_of_fits fits⟩

/-- Each row has the keys of its tuple. -/
theorem forall₂_keys {ts : List (List Value)} {members : List Value → List Value}
    (hcolumns : (Projection.planOf grouping.length total group).columns.mapM (resolvedColumn shape)
      = .ok columns)
    (lengths : ∀ t ∈ ts, t.length = grouping.length)
    (holds : List.Forall₂ (fun t row => Holds columns t (members t) row) ts rows) :
    List.Forall₂ (fun row t => row.keys grouping.length = t ∧ Holds columns t (members t) row)
      rows ts := by
  refine ((List.forall₂_and_left _ _).2 ⟨lengths, holds⟩).flip.imp fun row t h => ⟨?_, h.2⟩
  exact Row.keys_eq h.1 fun level below => get_key hcolumns h.2 (Projection.key_planOf below)

/-- Rows that hold the cells of the tuples of records tell of them. -/
theorem tabulated_of_holds
    (hkeys : grouping.mapM (fun g => Accessor.ofPath shape true g.selector) = .ok keys)
    (hcolumns : (Projection.planOf grouping.length total group).columns.mapM (resolvedColumn shape)
      = .ok columns)
    (read : ∀ record ∈ records, keys.mapM (fun key => key.read record) = .ok (tuple record))
    (holds : List.Forall₂ (fun t row => Holds columns t (classOf tuple records t) row)
      (orderedTuples grouping keys.isEmpty tuple records) rows) :
    Tabulated grouping (Projection.planOf grouping.length total group) tuple records rows := by
  have sum : ((orderedTuples grouping keys.isEmpty tuple records).map fun t =>
      (classOf tuple records t).length).sum = records.length := sum_length_classOf read
  have sameLength := (Outcome.mapM_eq_ok.1 hkeys).length_eq
  have lengths : ∀ record ∈ records, (tuple record).length = grouping.length :=
    fun record hrecord =>
      (sameLength.trans (Outcome.mapM_eq_ok.1 (read record hrecord)).length_eq).symm
  rw [Outcome.isEmpty_of_forall₂ (Outcome.mapM_eq_ok.1 hkeys)] at sum holds
  have rowOf := forall₂_keys hcolumns (fun t => length_of_mem_orderedTuples lengths) holds
  have tuples : rows.map (Row.keys grouping.length)
      = orderedTuples grouping grouping.isEmpty tuple records := by
    rw [← List.forall₂_eq_eq_eq, List.forall₂_map_left_iff]
    exact rowOf.imp fun row t h => h.1
  refine ⟨?_, ?_, fun record hrecord => ?_, fun grouped row hrow => ?_, fun none => ?_,
    fun fits n hn => ?_, fun places => ?_⟩
  · exact ((List.forall₂_and_left _ _).1
      (rowOf.imp fun row t h => ⟨width_of_holds hcolumns h.2, h⟩)).1
  · have apart : (orderedTuples grouping grouping.isEmpty tuple records).Pairwise
        fun t u => sameTuple t u = false := pairwise_apart_orderedTuples
    rwa [← tuples, List.pairwise_map] at apart
  · obtain ⟨t, ht, same⟩ := exists_orderedTuple lengths hrecord
    rw [← tuples] at ht
    obtain ⟨row, hrow, rfl⟩ := List.mem_map.1 ht
    exact ⟨row, hrow, same⟩
  · have keyed : grouping.isEmpty = false := by simpa using grouped
    have mem := List.mem_map_of_mem (f := Row.keys grouping.length) hrow
    rw [tuples, keyed] at mem
    exact find?_of_mem_orderedTuples mem
  · subst none
    obtain ⟨row, rfl, -⟩ := List.map_eq_singleton_iff.1 tuples
    exact ⟨row, rfl⟩
  · refine ⟨_, List.forall₂_map_right_iff.2 (rowOf.imp fun row t h => ⟨?_, by rw [h.1]⟩),
      fun grouped count hcount => ?_, sum⟩
    · have keyed : grouping.isEmpty = false := by simpa using grouped
      obtain ⟨t, ht, rfl⟩ := List.mem_map.1 hcount
      rw [keyed] at ht
      exact length_classOf_pos ht
    · have le : (classOf tuple records t).length ≤ records.length := List.length_filter_le _ _
      exact count_of_holds hcolumns h.2 hn (Integer.fits_of_le fits le)
  · have order := pairwise_orderedTuples lengths grouping.isEmpty places
    rwa [← tuples, List.pairwise_map] at order

/-- The rows that a store gives for a plan tell of the records that match by the tuples of their
keys. -/
theorem tabulated_project {r : Resolver} {guardNulls : Bool} (serves : r.Serves shape guardNulls)
    {plan : Projection} (hplan : Projection.made r grouping.length total group = .ok plan)
    {s : Store} {cancelled : Bool} {predicate : Predicate}
    (h : s.project cancelled ⟨predicate, grouping, plan⟩ = .ok rows) :
    ∃ records keys tuple, s.selected cancelled predicate = .ok records
      ∧ s.count cancelled predicate = .ok records.length
      ∧ grouping.mapM (fun g => Accessor.ofPath s.shape true g.selector) = .ok keys
      ∧ (∀ record ∈ records, keys.mapM (fun key => key.read record) = .ok (tuple record))
      ∧ plan.columns[plan.countPosition]? = some .rowCount
      ∧ Tabulated grouping plan tuple records rows := by
  rw [Projection.made_eq serves] at hplan
  obtain ⟨-, -, rfl⟩ := Outcome.map_eq_ok.1 hplan
  obtain ⟨records, keys, columns, tuple, selected, counted, hkeys, hcolumns, read, holds⟩ :=
    project_rows h
  exact ⟨records, keys, tuple, selected, counted, hkeys, read, Projection.count_planOf,
    tabulated_of_holds hkeys hcolumns read holds⟩

/-- Visits by town, in descending order, and size: two towns that are lists are level and stand as
their first visits do, the list of the later one holding the lesser number. -/
theorem tabulated_project_lists :
    let shape := Shape.mk "Visit" [.plain "town" .dynamic, .plain "size" .int32]
    let visit (town : Value) (size : Int64) := Value.object [("town", town), ("size", .int size)]
    let two : Value := .array [.int 2]
    let one : Value := .array [.int 1]
    let store : Store := ⟨shape, [visit .null 4, visit two 3, visit one 7, visit (.string "Ulm") 5,
      visit two 3, visit .null 1]⟩
    let grouping := [(Grouping.on "town").descending, Grouping.on "size"]
    let r := Resolver.fresh shape false
    let plan : Projection := {
      groupCount := 2
      columns := [.record, .key 0, .key 1, .max "size", .rowCount]
      total := [⟨.max, 3⟩, ⟨.remoteCount, 4⟩]
      group := []
      countPosition := 4 }
    let rows : List Row := [⟨[.null, two, .int 3, .int 3, .int 2]⟩,
      ⟨[.null, one, .int 7, .int 7, .int 1]⟩, ⟨[.null, .string "Ulm", .int 5, .int 5, .int 1]⟩,
      ⟨[.null, .null, .int 1, .int 1, .int 1]⟩, ⟨[.null, .null, .int 4, .int 4, .int 1]⟩]
    r.Serves shape false ∧ Projection.made r 2 [⟨some "size", .max⟩] [] = .ok plan
      ∧ store.project false ⟨.always, grouping, plan⟩ = .ok rows
      ∧ grouping ≠ [] ∧ Integer.Fits (store.records.length : Int)
      ∧ ∃ tuple : Value → List Value,
        (∀ record ∈ store.records, ∀ key ∈ tuple record, key.isDouble = false)
        ∧ Tabulated grouping plan tuple store.records rows := by
  intro shape visit two one store grouping r plan rows
  have made : Projection.made r 2 [⟨some "size", .max⟩] [] = .ok plan := rfl
  have answered : store.project false ⟨.always, grouping, plan⟩ = .ok rows := rfl
  obtain ⟨records, keys, tuple, selected, -, hkeys, read, -, tabulated⟩ :=
    tabulated_project Resolver.serves_fresh made answered
  obtain rfl : store.records = records := Except.ok.inj selected
  refine ⟨Resolver.serves_fresh, made, answered, by simp [grouping], by decide, tuple,
    fun record hrecord => ?_, tabulated⟩
  let readKeys (keys : List Accessor) (record : Value) : Option (List Value) :=
    (keys.mapM fun key : Accessor => key.read record).toOption
  have places : ∀ record ∈ store.records,
      ((grouping.mapM fun g => Accessor.ofPath store.shape true g.selector).toOption.bind
        (readKeys · record)).all (fun t => t.all fun key => !key.isDouble) = true := by
    decide +kernel
  have place := places record hrecord
  simp only [hkeys, readKeys, read record hrecord, Except.toOption, Option.bind_some] at place
  simpa using place

end Rows

end Store

end DataGrid
