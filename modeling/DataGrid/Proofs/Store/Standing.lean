import DataGrid.Proofs.Grouping.Outline
import DataGrid.Proofs.Store

/-!
# Flat rows stand for records

A flat row stands for the records that have its tuple of keys. `Store.Stands` says so of lists:
there is one row for every tuple of the records, in the order of their first appearance.

* Rows that stand for records have the same keys at every level (`Stands.keysAt_eq`), and the rows
  with a key stand for the records with it (`Stands.withKey`).
* The records of all rows are the records (`Stands.flatMap_perm`), and both have one outline
  (`Stands.outline_eq`).
* If the keys are exact, the rows of a projection stand for the records in any order that keeps the
  keys sorted (`stands_of_sorted`).
-/

namespace DataGrid.Store

open Grouping (sameKey keysAt withKey onPath)

/-- The key that a tuple has at a level. -/
def keyIn (t : List Value) (level : Nat) : Value := t[level]?.getD .null

/-- Lists that are the same have the same at every place. -/
theorem sameItems_getD {as bs : List Value} (h : Value.sameItems as bs = true) (i : Nat) :
    (as[i]?.getD .null).same (bs[i]?.getD .null) = true := by
  induction as generalizing bs i with
  | nil => cases bs <;> first | rfl | cases h
  | cons a as ih =>
    cases bs with
    | nil => cases h
    | cons b bs =>
      obtain ⟨hab, hrest⟩ := Bool.and_eq_true_iff.1 h
      cases i with
      | zero => exact hab
      | succ i => exact ih hrest i

/-- Tuples that are grouped together have keys that are grouped together. -/
theorem sameKey_of_sameTuple {t u : List Value} (h : sameTuple t u = true) (level : Nat) :
    sameKey (keyIn t level) (keyIn u level) = true := by
  have same := sameItems_getD h level
  simp only [List.getElem?_map] at same
  rw [sameKey, keyIn, keyIn]
  cases ht : t[level]? <;> cases hu : u[level]? <;> simpa [ht, hu, Value.groupKey] using same

/-- Exact tuples are grouped together only if they are equal. -/
theorem eq_of_sameTuple {t u : List Value} (ht : ∀ v ∈ t, v.isExact = true)
    (hu : ∀ v ∈ u, v.isExact = true) (h : sameTuple t u = true) : t = u := by
  induction t generalizing u with
  | nil => cases u <;> first | rfl | cases h
  | cons a as ih =>
    cases u with
    | nil => cases h
    | cons b bs =>
      obtain ⟨ha, has⟩ := List.forall_mem_cons.1 ht
      obtain ⟨hb, hbs⟩ := List.forall_mem_cons.1 hu
      obtain ⟨hab, hrest⟩ := Bool.and_eq_true_iff.1 h
      rw [(Grouping.sameKey_eq_true_iff ha hb).1 hab, ih has hbs hrest]

/-- To be on a path is to have the same tuple, from the level on at which it starts. -/
theorem all_zipIdx_eq_sameTuple (above ts : List Value) {path : List Value}
    (deep : path.length = ts.length) :
    (path.zipIdx above.length).all (fun k => sameKey k.1 (keyIn (above ++ ts) k.2))
      = sameTuple path ts := by
  induction path generalizing above ts with
  | nil =>
    obtain rfl := List.eq_nil_of_length_eq_zero deep.symm
    rfl
  | cons k path ih =>
    cases ts with
    | nil => cases deep
    | cons t ts =>
      have here : keyIn (above ++ t :: ts) above.length = t := by
        rw [keyIn, List.getElem?_append_right (Nat.le_refl _), Nat.sub_self]
        rfl
      -- the key at hand goes over to those above, so that levels stay
      have rest := ih (above ++ [t]) ts (Nat.succ.inj deep)
      rw [List.append_assoc, List.singleton_append, List.length_append] at rest
      rw [List.zipIdx_cons, List.all_cons, here]
      exact congrArg (sameKey k t && ·) rest

/-- Rows of known tuples are on the paths that are the same tuples. -/
theorem onPath_keyIn {α : Type} (tuple : α → List Value) {path : List Value} {row : α}
    (deep : path.length = (tuple row).length) :
    onPath (fun row level => keyIn (tuple row) level) path row = sameTuple path (tuple row) :=
  all_zipIdx_eq_sameTuple [] (tuple row) deep

/-- The key of a record at a level. -/
def keyOf (tuple : Value → List Value) (record : Value) (level : Nat) : Value :=
  keyIn (tuple record) level

variable {tuple : Value → List Value} {flat : List Value → Row} {records : List Value}

/-- There is one flat row for every tuple of some records, which are all records that have the
tuples. -/
structure Stands (tuple : Value → List Value) (flat : List Value → Row)
    (records xs : List Value) (ys : List Row) : Prop where
  /-- the rows in the order of their tuples -/
  rows_eq : ys = (Bucket.firsts sameTuple (xs.map tuple)).map flat
  /-- the records with a tuple are all there are -/
  whole : ∀ x ∈ xs, (classOf tuple xs (tuple x)).Perm (classOf tuple records (tuple x))

namespace Stands

variable {xs : List Value} {ys : List Row}

theorem mem_records (h : Stands tuple flat records xs ys) {x : Value} (hx : x ∈ xs) :
    x ∈ records := by
  have own : x ∈ classOf tuple xs (tuple x) :=
    List.mem_filter.2 ⟨hx, sameTuple_equivalence.refl (tuple x)⟩
  exact (List.mem_filter.1 ((h.whole x hx).mem_iff.1 own)).1

/-- A property of records in the rows that stand for them. -/
theorem tuple_of_mem_firsts {t : List Value}
    (ht : t ∈ Bucket.firsts sameTuple (xs.map tuple)) : ∃ x ∈ xs, tuple x = t :=
  List.mem_map.1 (Bucket.mem_of_mem_firsts _ ht)

variable {key : Row → Nat → Value}
variable (hkey : ∀ x ∈ records, ∀ level, key (flat (tuple x)) level = keyIn (tuple x) level)
include hkey

/-- Rows have the keys of the records that they stand for. -/
theorem keysAt_eq (h : Stands tuple flat records xs ys) (level : Nat) :
    keysAt (keyOf tuple) level xs = keysAt key level ys := by
  have keys : (Bucket.firsts sameTuple (xs.map tuple)).map (fun t => key (flat t) level)
      = (Bucket.firsts sameTuple (xs.map tuple)).map fun t => keyIn t level := by
    apply List.map_congr_left
    intro t ht
    obtain ⟨x, hx, rfl⟩ := tuple_of_mem_firsts ht
    exact hkey x (h.mem_records hx) level
  rw [keysAt, keysAt, h.rows_eq, List.map_map, Function.comp_def, keys,
    Bucket.firsts_map_firsts Grouping.sameKey_equivalence
      (fun t u (htu : sameTuple t u = true) => sameKey_of_sameTuple htu level), List.map_map]
  rfl

/-- The rows with a key stand for the records with the key. -/
theorem withKey (h : Stands tuple flat records xs ys) (level : Nat) (k : Value) :
    Stands tuple flat records (Grouping.withKey (keyOf tuple) level k xs)
      (Grouping.withKey key level k ys) := by
  have classes : ∀ t u, sameTuple t u = true →
      sameKey k (keyIn t level) = sameKey k (keyIn u level) := by
    intro t u htu
    exact Bucket.same_congr_right Grouping.sameKey_equivalence (sameKey_of_sameTuple htu level) k
  constructor
  · have keys : (Bucket.firsts sameTuple (xs.map tuple)).filter
          (fun t => sameKey k (key (flat t) level))
        = (Bucket.firsts sameTuple (xs.map tuple)).filter fun t => sameKey k (keyIn t level) := by
      apply List.filter_congr
      intro t ht
      obtain ⟨x, hx, rfl⟩ := tuple_of_mem_firsts ht
      rw [hkey x (h.mem_records hx) level]
    rw [Grouping.withKey, Grouping.withKey, h.rows_eq, List.filter_map, Function.comp_def, keys,
      ← Bucket.firsts_filter classes, List.filter_map]
    rfl
  · intro x hx
    obtain ⟨hx, hkx⟩ := Grouping.mem_withKey.1 hx
    -- records with the same tuple have the same key, so that none of them is left out
    have all : classOf tuple (Grouping.withKey (keyOf tuple) level k xs) (tuple x)
        = classOf tuple xs (tuple x) := by
      rw [classOf, classOf, Grouping.withKey, List.filter_filter]
      apply List.filter_congr
      intro y _
      cases hxy : sameTuple (tuple x) (tuple y) with
      | false => rfl
      | true => simpa [keyOf, ← classes _ _ hxy] using hkx
    rw [all]
    exact h.whole x hx

omit hkey in
/-- The records of all rows are the records. -/
theorem flatMap_perm (h : Stands tuple flat records xs ys) :
    ((Bucket.firsts sameTuple (xs.map tuple)).flatMap (classOf tuple records)).Perm xs := by
  have collected := Bucket.flatMap_collect_perm sameTuple
    (xs.map fun x => (tuple x, x))
  rw [collect_tuples, List.flatMap_map, List.map_map] at collected
  simp only [Function.comp_def, List.map_id'] at collected
  refine (List.Perm.flatMap_left _ fun t ht => ?_).trans collected
  obtain ⟨x, hx, rfl⟩ := tuple_of_mem_firsts ht
  exact (h.whole x hx).symm

omit hkey in
/-- Rows that count for their records count all records together. -/
theorem sum_counts (h : Stands tuple flat records xs ys) {recordsOf : Row → Nat}
    (counts : ∀ x ∈ records,
      recordsOf (flat (tuple x)) = (classOf tuple records (tuple x)).length) :
    (ys.map recordsOf).sum = xs.length := by
  have counted : ∀ t ∈ Bucket.firsts sameTuple (xs.map tuple),
      recordsOf (flat t) = (classOf tuple records t).length := by
    intro t ht
    obtain ⟨x, hx, rfl⟩ := tuple_of_mem_firsts ht
    exact counts x (h.mem_records hx)
  rw [h.rows_eq, List.map_map, ← h.flatMap_perm.length_eq, List.length_flatMap]
  exact congrArg List.sum (List.map_congr_left counted)

/-- The outline of rows, each of which counts for its records, is that of the records. -/
theorem outline_eq {β : Type} (h : Stands tuple flat records xs ys) {recordsOf : Row → Nat}
    (counts : ∀ x ∈ records,
      recordsOf (flat (tuple x)) = (classOf tuple records (tuple x)).length)
    {summary : List Row → Option (List Value)} {summary' : List Value → Option (List Value)}
    (summaries : ∀ part rows, Stands tuple flat records part rows → part.Sublist xs →
      summary rows = summary' part) (below : Nat) :
    (Grouping.outline key (fun rows => (rows.map recordsOf).sum) summary below 0 ys :
      List (Group β))
      = Grouping.outline (keyOf tuple) List.length summary' below 0 xs := by
  refine Grouping.outline_congr (R := fun rows part =>
    Stands tuple flat records part rows ∧ part.Sublist xs) ?_ ?_ ?_ ?_ _ _ ⟨h, .refl _⟩
  · rintro rows part level ⟨stands, -⟩
    exact (stands.keysAt_eq hkey level).symm
  · rintro rows part level k ⟨stands, sub⟩
    exact ⟨stands.withKey hkey level k, List.filter_sublist.trans sub⟩
  · rintro rows part ⟨stands, -⟩
    exact stands.sum_counts counts
  · rintro rows part ⟨stands, sub⟩
    exact summaries part rows stands sub

end Stands

section Sorted

variable {levels : List Bool} {xs : List Value}

/-- Every tuple of exact values is one of those that come first. -/
theorem mem_firsts_iff (exact : ∀ x ∈ records, Sorting.IsTuple levels.length (tuple x))
    {t : List Value} :
    t ∈ Bucket.firsts sameTuple (records.map tuple) ↔ t ∈ records.map tuple := by
  refine ⟨Bucket.mem_of_mem_firsts _, fun ht => ?_⟩
  obtain ⟨u, hu, same⟩ := Bucket.exists_mem_firsts sameTuple_equivalence ht
  obtain ⟨x, hx, rfl⟩ := List.mem_map.1 ht
  obtain ⟨y, hy, rfl⟩ := Stands.tuple_of_mem_firsts hu
  rwa [← eq_of_sameTuple (exact y hy).2 (exact x hx).2 same]

theorem nodup_firsts (tuple : Value → List Value) (records : List Value) :
    (Bucket.firsts sameTuple (records.map tuple)).Nodup :=
  (Bucket.pairwise_firsts sameTuple _).imp fun apart same => by
    rw [same, sameTuple_equivalence.refl _] at apart
    cases apart

/-- The tuples of records that are sorted by them appear in their order. -/
theorem orderedTuples_eq {grouping : List Grouping}
    (exact : ∀ x ∈ records, Sorting.IsTuple (grouping.map Grouping.desc).length (tuple x))
    (perm : xs.Perm records) (sorted : xs.Pairwise fun a b =>
      (Sorting.compareKeys (grouping.map Grouping.desc) (tuple a) (tuple b)).isLE) :
    orderedTuples grouping false tuple records = Bucket.firsts sameTuple (xs.map tuple) := by
  have orders := Sorting.compareKeys_orders (grouping.map Grouping.desc)
  have exact' : ∀ x ∈ xs, Sorting.IsTuple (grouping.map Grouping.desc).length (tuple x) :=
    fun x hx => exact x (perm.mem_iff.1 hx)
  have isTuple : ∀ t ∈ Bucket.firsts sameTuple (records.map tuple),
      Sorting.IsTuple (grouping.map Grouping.desc).length t := by
    intro t ht
    obtain ⟨x, hx, rfl⟩ := Stands.tuple_of_mem_firsts ht
    exact exact x hx
  have same : (Bucket.firsts sameTuple (records.map tuple)).Perm
      (Bucket.firsts sameTuple (xs.map tuple)) := by
    refine (List.perm_ext_iff_of_nodup (nodup_firsts tuple records) (nodup_firsts tuple xs)).2
      fun t => ?_
    rw [mem_firsts_iff exact, mem_firsts_iff exact', (perm.map tuple).mem_iff]
  have ordered := Sorting.arrange_perm (Sorting.compareKeys (grouping.map Grouping.desc))
    (tuplesOf false tuple records)
  have arranged := Sorting.pairwise_arrange orders.places isTuple
  have firsts : (Bucket.firsts sameTuple (xs.map tuple)).Pairwise fun a b =>
      (Sorting.compareKeys (grouping.map Grouping.desc) a b).isLE :=
    (List.pairwise_map.2 sorted).sublist (Bucket.firsts_sublist _ _)
  refine (ordered.trans same).eq_of_pairwise ?_ arranged firsts
  intro t u ht hu htu hut
  exact orders.antisymm (isTuple t (ordered.mem_iff.1 ht))
    (isTuple u (same.symm.mem_iff.1 hu)) htu hut

/-- The flat rows of records, in the order of their keys, stand for the records in an order that
keeps the keys sorted. -/
theorem stands_of_sorted {grouping : List Grouping}
    (exact : ∀ x ∈ records, Sorting.IsTuple (grouping.map Grouping.desc).length (tuple x))
    (perm : xs.Perm records) (sorted : xs.Pairwise fun a b =>
      (Sorting.compareKeys (grouping.map Grouping.desc) (tuple a) (tuple b)).isLE) :
    Stands tuple flat records xs ((orderedTuples grouping false tuple records).map flat) :=
  ⟨by rw [orderedTuples_eq exact perm sorted], fun x _ => perm.filter _⟩

end Sorted

end DataGrid.Store
