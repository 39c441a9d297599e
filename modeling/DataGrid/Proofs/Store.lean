import DataGrid.Proofs.Grouping.Levels
import DataGrid.Proofs.Resolving
import DataGrid.Proofs.Sorting

/-!
# What a store answers

* `Store.select_eq_ok`: the records that match are those that the predicate accepts, if it decides
  all of them.
* `Store.load_eq_ok` and `Store.project_eq_ok` take the answers of a store apart.
* `Store.buckets_eq`: the buckets of records are the tuples of their keys, each with the records
  that have it. Without keys there is one tuple, the empty one.
-/

namespace DataGrid

open Resolver

namespace Sorter

variable {shape : Shape} {guardNulls : Bool}

/-- The levels of sorting of a shape. -/
def resolved (shape : Shape) (guardNulls : Bool) (sort : List Sorting) :
    Except CompileError Sorter := do
  return ⟨← sort.mapM fun s => return (← Accessor.ofPath shape guardNulls s.selector, s.desc)⟩

/-- A sorter is made the same whatever is remembered of paths. -/
theorem computes_make (sort : List Sorting) :
    Computes (Serves shape guardNulls) (make sort) (resolved shape guardNulls sort) :=
  (Computes.mapM fun s _ => (computes_resolve s.selector).bind fun _ _ => .pure _).bind
    fun _ _ => .pure _

variable {sort : List Sorting} {s : Sorter}

/-- What the selectors of levels read of a record. -/
def ReadsKey (shape : Shape) (guardNulls : Bool) (sort : List Sorting) (record : Value)
    (key : List Value) : Prop :=
  List.Forall₂ (fun level v => ∃ a, Accessor.ofPath shape guardNulls level.selector = .ok a
    ∧ a.read record = .ok v) sort key

/-- A sorter has an accessor and a direction for each of its levels. -/
theorem keys_of_resolved (h : resolved shape guardNulls sort = .ok s) :
    List.Forall₂ (fun level k => Accessor.ofPath shape guardNulls level.selector = .ok k.1
      ∧ k.2 = level.desc) sort s.keys := by
  obtain ⟨keys, hkeys, made⟩ := Outcome.bind_eq_ok.1 h
  cases made
  refine (Outcome.mapM_eq_ok.1 hkeys).imp fun level k hk => ?_
  obtain ⟨a, ha, hk⟩ := Outcome.bind_eq_ok.1 hk
  cases hk
  exact ⟨ha, rfl⟩

/-- It has the directions that were asked for. -/
theorem desc_of_resolved (h : resolved shape guardNulls sort = .ok s) :
    s.keys.map Prod.snd = sort.map Sorting.desc := by
  have keys := keys_of_resolved h
  clear h
  generalize s.keys = ks at keys
  induction keys with
  | nil => rfl
  | cons hk _ ih => rw [List.map_cons, List.map_cons, hk.2, ih]

/-- The sorter reads the key that the accessors of the levels read. -/
theorem keyOf_of_resolved (h : resolved shape guardNulls sort = .ok s) {record : Value}
    {key : List Value} (reads : ReadsKey shape guardNulls sort record key) :
    s.keyOf record = .ok key := by
  rw [keyOf, Outcome.mapM_eq_ok]
  have keys := keys_of_resolved h
  clear h
  generalize s.keys = ks at keys
  induction keys generalizing key with
  | nil =>
    rw [List.forall₂_nil_left_iff.1 reads]
    exact .nil
  | cons hk _ ih =>
    obtain ⟨v, vs, ⟨a, ha, hv⟩, hvs, rfl⟩ := List.forall₂_cons_left_iff.1 reads
    obtain rfl := Except.ok.inj (hk.1.symm.trans ha)
    exact .cons hv (ih hvs)

end Sorter

/-- Whether a predicate decides a record, and decides that it matches. -/
def Predicate.accepts (p : Predicate) (record : Value) : Bool :=
  match p.evaluate record with
  | .ok b => b
  | .error _ => false

/-- A predicate accepts what it holds of. -/
theorem Predicate.accepts_of_evaluate {p : Predicate} {record : Value} {b : Bool}
    (h : p.evaluate record = .ok b) : p.accepts record = b := by
  rw [accepts, h]

namespace Store

variable {s : Store}

/-- The records that match are those that the predicate accepts, if it decides all of them. -/
theorem select_eq_ok {p : Predicate} {records found : List Value} :
    select p records = .ok found
      ↔ (∀ record ∈ records, p.evaluate record = .ok (p.accepts record))
        ∧ records.filter p.accepts = found := by
  induction records generalizing found with
  | nil => simp [select]
  | cons record rest ih =>
    rw [select, List.forall_mem_cons]
    rcases h : p.evaluate record with e | _ | _
    · simp
    · have hp := Predicate.accepts_of_evaluate h
      rw [List.filter_cons_of_neg (by simp [hp])]
      simpa [hp] using ih
    · have hp := Predicate.accepts_of_evaluate h
      rw [List.filter_cons_of_pos hp]
      simp only [Outcome.map_eq_ok, ih, hp, true_and]
      constructor
      · rintro ⟨found, ⟨all, rfl⟩, rfl⟩
        exact ⟨all, rfl⟩
      · rintro ⟨all, rfl⟩
        exact ⟨_, ⟨all, rfl⟩, rfl⟩

/-- The records that match are some of the records, in their order. -/
theorem sublist_of_select {p : Predicate} {records found : List Value}
    (h : select p records = .ok found) : found.Sublist records :=
  (select_eq_ok.1 h).2 ▸ List.filter_sublist

/-- A store selects the records of which the predicate holds. -/
theorem selected_eq_ok {predicate : Predicate} {records : List Value} :
    s.selected false predicate = .ok records ↔ select predicate s.records = .ok records :=
  Outcome.mapError_eq_ok

/-- What a fresh resolver computes does not depend on what it remembers. -/
theorem resolving_eq {α : Type} {work : Resolving α} {outcome : Except CompileError α}
    (h : Computes (Serves s.shape true) work outcome) :
    s.resolving work = outcome.mapError .compile := by
  rw [resolving, h.run_eq serves_fresh]

/-- A page is taken of the selected records in their order. -/
theorem load_eq_ok {q : PageQuery} {shown : List Value} :
    s.load false q = .ok shown ↔ ∃ records sorter sorted,
      select q.predicate s.records = .ok records
        ∧ Sorter.resolved s.shape true q.sort = .ok sorter
        ∧ sorter.sort records = ⟨sorted, none⟩ ∧ page q.skip q.take sorted = shown := by
  simp only [load, Outcome.bind_eq_ok, selected_eq_ok, resolving_eq (Sorter.computes_make q.sort),
    Outcome.mapError_eq_ok]
  constructor
  · rintro ⟨records, hrecords, sorter, hsorter, h⟩
    rcases hsort : sorter.sort records with ⟨sorted, _ | e⟩ <;> rw [hsort] at h <;> cases h
    exact ⟨records, sorter, sorted, hrecords, hsorter, hsort, rfl⟩
  · rintro ⟨records, sorter, sorted, hrecords, hsorter, hsort, rfl⟩
    refine ⟨records, hrecords, sorter, hsorter, ?_⟩
    rw [hsort]
    rfl

/-- The store counts the selected records. -/
theorem count_eq_ok {predicate : Predicate} {n : Nat} :
    s.count false predicate = .ok n
      ↔ ∃ records, select predicate s.records = .ok records ∧ records.length = n := by
  simp only [count, Outcome.bind_eq_ok, selected_eq_ok]
  exact exists_congr fun records => and_congr_right fun _ =>
    ⟨fun h => by cases h; rfl, fun h => h ▸ rfl⟩

/-- A column and the accessor of its selector. -/
def resolvedColumn (shape : Shape) (c : Column) : Except CompileError ResolvedColumn :=
  match selectorOf? c with
  | some selector => return ⟨c, some (← Accessor.ofPath shape true selector)⟩
  | none => return ⟨c, none⟩

theorem computes_resolveColumn {shape : Shape} (c : Column) :
    Computes (Serves shape true) (resolveColumn c) (resolvedColumn shape c) := by
  rw [resolveColumn, resolvedColumn]
  cases selectorOf? c with
  | none => exact .pure _
  | some selector => exact (computes_resolve selector).bind fun _ _ => .pure _

/-- Flat rows are the cells of the buckets of selected records. -/
theorem project_eq_ok {q : ProjectionQuery} {rows : List Row} :
    s.project false q = .ok rows ↔ ∃ records keys columns found,
      select q.predicate s.records = .ok records
        ∧ q.grouping.mapM (fun g => Accessor.ofPath s.shape true g.selector) = .ok keys
        ∧ q.plan.columns.mapM (resolvedColumn s.shape) = .ok columns
        ∧ buckets keys q.grouping records = .ok found
        ∧ List.Forall₂ (fun bucket row =>
          columns.mapM (fun c => cell c bucket.1 bucket.2) = .ok row.values) found rows := by
  have resolved : Computes (Serves s.shape true) (do
        let keys ← q.grouping.mapM fun g => resolve g.selector
        return (keys, ← q.plan.columns.mapM resolveColumn)) (do
        let keys ← q.grouping.mapM fun g => Accessor.ofPath s.shape true g.selector
        return (keys, ← q.plan.columns.mapM (resolvedColumn s.shape))) :=
    (Computes.mapM fun g _ => computes_resolve g.selector).bind fun _ _ =>
      (Computes.mapM fun c _ => computes_resolveColumn c).bind fun _ _ => .pure _
  simp only [project, Outcome.bind_eq_ok, selected_eq_ok, resolving_eq resolved,
    Outcome.mapError_eq_ok, Outcome.mapM_eq_ok]
  constructor
  · rintro ⟨records, hrecords, _, ⟨keys, hkeys, columns, hcolumns, h⟩, found, hfound, hrows⟩
    cases h
    refine ⟨records, keys, columns, found, hrecords, hkeys, hcolumns, hfound, ?_⟩
    refine hrows.imp fun bucket row hrow => ?_
    obtain ⟨values, hvalues, hrow⟩ := hrow
    cases hrow
    exact hvalues
  · rintro ⟨records, keys, columns, found, hrecords, hkeys, hcolumns, hfound, hrows⟩
    refine ⟨records, hrecords, (keys, columns), ⟨keys, hkeys, columns, hcolumns, rfl⟩, found,
      hfound, ?_⟩
    exact hrows.imp fun bucket row hrow => ⟨row.values, hrow, rfl⟩

/-! ### Buckets -/

/-- The records that have a tuple of keys. -/
def classOf (tuple : Value → List Value) (records : List Value) (t : List Value) : List Value :=
  records.filter fun record => sameTuple t (tuple record)

variable {tuple : Value → List Value} {keys : List Accessor} {records : List Value}

/-- Records are keyed by their tuples. -/
theorem keyedBy_eq (h : ∀ record ∈ records, keys.mapM (·.read record) = .ok (tuple record)) :
    keyedBy keys records = .ok (records.map fun record => (tuple record, record)) :=
  Outcome.mapM_ok fun record hrecord => by rw [h record hrecord]; rfl

/-- A bucket has the records of a tuple, and there is one for each tuple that comes first. -/
theorem collect_tuples (tuple : Value → List Value) (records : List Value) :
    Bucket.collect sameTuple (records.map fun record => (tuple record, record))
      = (Bucket.firsts sameTuple (records.map tuple)).map
        fun t => (t, classOf tuple records t) := by
  rw [Bucket.collect_eq sameTuple_equivalence, List.map_map]
  apply List.map_congr_left
  intro t _
  rw [Bucket.rowsOf, List.filter_map, List.map_map]
  simp [Function.comp_def, classOf]

/-- The tuples of buckets: every tuple of the records once, or the empty tuple if there are no
keys. -/
def tuplesOf (keyless : Bool) (tuple : Value → List Value) (records : List Value) :
    List (List Value) :=
  if keyless then [[]] else Bucket.firsts sameTuple (records.map tuple)

/-- The tuples of buckets in the order of the keys. -/
def orderedTuples (grouping : List Grouping) (keyless : Bool) (tuple : Value → List Value)
    (records : List Value) : List (List Value) :=
  Sorting.arrange (Sorting.compareKeys (grouping.map Grouping.desc))
    (tuplesOf keyless tuple records)

/-- Without keys there is one bucket, also of no records. -/
theorem collect_or_empty
    (h : ∀ record ∈ records, keys.mapM (·.read record) = .ok (tuple record)) :
    (let collected := Bucket.collect sameTuple (records.map fun record => (tuple record, record))
      if keys.isEmpty && collected.isEmpty then [([], [])] else collected)
      = (tuplesOf keys.isEmpty tuple records).map fun t => (t, classOf tuple records t) := by
  rw [collect_tuples]
  rw [tuplesOf]
  cases keys with
  | cons a keys => rfl
  | nil =>
    have empty : ∀ record ∈ records, tuple record = [] := fun record hrecord =>
      (Except.ok.inj (h record hrecord)).symm
    cases records with
    | nil => rfl
    | cons record rest =>
      rw [List.forall_mem_cons] at empty
      rw [List.map_cons, empty.1, Bucket.firsts_cons_of_same]
      · rfl
      · intro t ht
        obtain ⟨other, hother, rfl⟩ := List.mem_map.1 ht
        rw [empty.2 other hother]
        rfl

/-- The buckets of records are the tuples of their keys, in the order of the keys, each with the
records that have it. -/
theorem buckets_eq {grouping : List Grouping}
    (h : ∀ record ∈ records, keys.mapM (·.read record) = .ok (tuple record)) :
    buckets keys grouping records = .ok ((orderedTuples grouping keys.isEmpty tuple records).map
      fun t => (t, classOf tuple records t)) := by
  have collected := collect_or_empty h
  rw [buckets, keyedBy_eq h]
  simp only [bind, Except.bind] at collected ⊢
  rw [collected, orderedTuples, Sorting.arrange_map]
  rfl

end Store

end DataGrid
