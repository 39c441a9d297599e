import DataGrid.Proofs.Filter.Narrowing
import DataGrid.Proofs.Loader.Agreement
import DataGrid.Proofs.Loader.Leaves

/-!
# Opening a group

A client that opens an innermost group asks for the records of its criteria narrowed down to the
keys of the group. Over a store, if the keys have literals in JSON (`Loader.serve_countingAt`):

* the narrowed criteria match the records that have the keys as they are read back, which are as
  many as the group counts if no key is a moment that is written as another one;
* a record that matches the criteria of the request matches the narrowed criteria of exactly one
  innermost group, if and only if no key of it is such a moment and no group with such a moment is
  read back as the keys of the record.

A group of such a moment opens on the records of the other one
(`Loader.not_serve_countingAt_filled`).
-/

namespace DataGrid

open Store (tupleAt keyOf keyIn)
open Subtree (leavesUnder)
open Grouping (sameKey onPath IsLeaf)

/-- The request for the number of records that match and have the keys of a path. -/
def LoadRequest.countingAt (o : LoadRequest) (path : List Value) : LoadRequest :=
  { o with
    isCountQuery := true
    filter := some (Criteria.narrowed o.criteria (o.group.map Grouping.selector) path) }

/-- A predicate that holds where another does and where records have a property counts the records
with the property among those that match the other. -/
theorem Store.count_of_narrowed {store : Store} {predicate p : Predicate} {found : List Value}
    {has : Value → Bool} (matching : select predicate store.records = .ok found)
    (h : ∀ record ∈ store.records,
      p.evaluate record = .ok (predicate.accepts record && has record)) :
    store.count false p = .ok (found.filter has).length := by
  have accepts : ∀ record ∈ store.records,
      p.accepts record = (predicate.accepts record && has record) := fun record hrecord =>
    Predicate.accepts_of_evaluate (h record hrecord)
  have narrowed : select p store.records = .ok (store.records.filter p.accepts) := by
    refine select_eq_ok.2 ⟨fun record hrecord => ?_, rfl⟩
    rw [h record hrecord, accepts record hrecord]
  refine count_eq_ok.2 ⟨_, narrowed, ?_⟩
  rw [← (select_eq_ok.1 matching).2, List.filter_filter]
  congr 1
  apply List.filter_congr
  intro record hrecord
  rw [accepts record hrecord, Bool.and_comm]

/-! ### Keys of groups and keys of records -/

namespace Filter

variable {shape : Shape} {grouping : List Grouping}

theorem all_sameKey (ts : List Value) {path : List Value} (deep : path.length = ts.length) :
    (List.zipWith (fun t k => sameKey k t) ts path).all id = Store.sameTuple path ts := by
  induction path generalizing ts with
  | nil =>
    obtain rfl := List.eq_nil_of_length_eq_zero deep.symm
    rfl
  | cons k path ih =>
    cases ts with
    | nil => cases deep
    | cons t ts => exact congrArg (sameKey k t && ·) (ih ts (Nat.succ.inj deep))

/-- A record has the keys of the selectors of a grouping if it is on the path of the keys. -/
theorem all_hasKeys {path : List Value} (deep : path.length = grouping.length) (record : Value) :
    (hasKeys shape (grouping.map Grouping.selector) path record).all id
      = onPath (keyOf (tupleAt shape grouping)) path record := by
  have full : path.length = (tupleAt shape grouping record).length := by
    rw [deep, tupleAt, List.length_map]
  have same := all_sameKey _ full
  rw [tupleAt, List.zipWith_map_left] at same
  rw [hasKeys, List.zipWith_map_left, same]
  exact (Store.onPath_keyIn _ full).symm

/-- Keys of selectors are exact. -/
theorem isExact_of_isKey {selectors : List String} {path : List Value}
    (h : List.Forall₂ (IsKey shape) selectors path) : ∀ k ∈ path, k.isExact = true := by
  induction h with
  | nil => exact fun k hk => nomatch hk
  | cons key _ ih =>
    obtain ⟨-, a, -, literals, admits⟩ := key
    exact List.forall_mem_cons.2
      ⟨FieldType.exact_of_admits (FieldType.isExact_of_hasLiterals literals) admits, ih⟩

/-- Two properties of which one implies the other are one if they hold equally often. -/
theorem of_countP_eq {α : Type} {p q : α → Bool} {l : List α}
    (imp : ∀ a ∈ l, p a = true → q a = true) (same : l.countP p = l.countP q) :
    ∀ a ∈ l, q a = true → p a = true := by
  have inner : (l.filter q).filter p = l.filter p := by
    rw [List.filter_filter]
    refine List.filter_congr fun a ha => ?_
    rw [Bool.eq_iff_iff, Bool.and_eq_true, and_iff_left_iff_imp]
    exact imp a ha
  have all : (l.filter q).filter p = l.filter q :=
    List.filter_sublist.eq_of_length (by
      rw [inner, ← List.countP_eq_length_filter, ← List.countP_eq_length_filter, same])
  exact fun a ha hq => List.filter_eq_self.1 all a (List.mem_filter.2 ⟨ha, hq⟩)

/-- If exactly one group has some keys, exactly one has them once its own are read back, if and only
if the keys are settled and every group that has them so is settled. -/
theorem countP_settle_eq_one_iff {leaves : List Leaf} {keys : List Value}
    {has reads : Leaf → Bool}
    (has_iff : ∀ leaf ∈ leaves, has leaf = true ↔ leaf.path = keys)
    (reads_iff : ∀ leaf ∈ leaves, reads leaf = true ↔ leaf.path.map Value.settle = keys)
    (one : leaves.countP has = 1) :
    leaves.countP reads = 1 ↔ Value.AllSettled keys
      ∧ ∀ leaf ∈ leaves, leaf.path.map Value.settle = keys → Value.AllSettled leaf.path := by
  constructor
  · intro reading
    obtain ⟨leaf, hleaf, there⟩ := List.countP_pos_iff.1 (reading ▸ Nat.one_pos)
    have settled : Value.AllSettled keys :=
      (reads_iff leaf hleaf).1 there ▸ Value.allSettled_map_settle leaf.path
    have imp : ∀ leaf ∈ leaves, has leaf = true → reads leaf = true := by
      intro leaf hleaf on
      rw [reads_iff leaf hleaf, (has_iff leaf hleaf).1 on, Value.map_settle_eq_self settled]
    refine ⟨settled, fun leaf hleaf same => ?_⟩
    have on := of_countP_eq imp (one.trans reading.symm) leaf hleaf ((reads_iff leaf hleaf).2 same)
    rwa [(has_iff leaf hleaf).1 on]
  · rintro ⟨settled, others⟩
    rw [← one]
    refine List.countP_congr fun leaf hleaf => ?_
    rw [reads_iff leaf hleaf, has_iff leaf hleaf]
    constructor
    · intro same
      rwa [Value.map_settle_eq_self (others leaf hleaf same)] at same
    · intro same
      rw [same, Value.map_settle_eq_self settled]

/-- A record is on the path of exact keys if it has these keys. -/
theorem onPath_iff_eq_tupleAt (exact : ∀ g ∈ grouping, shape.PathIs FieldType.isExact g.selector)
    {path : List Value} (deep : path.length = grouping.length)
    (keys : ∀ k ∈ path, k.isExact = true) {record : Value}
    (conforms : shape.conforms record = true) :
    onPath (keyOf (tupleAt shape grouping)) path record = true
      ↔ path = tupleAt shape grouping record := by
  have tuple := Store.isTuple_tupleAt exact conforms
  have full : path.length = (tupleAt shape grouping record).length := by
    rw [deep, tupleAt, List.length_map]
  have same : onPath (keyOf (tupleAt shape grouping)) path record
      = Store.sameTuple path (tupleAt shape grouping record) := Store.onPath_keyIn _ full
  rw [same]
  constructor
  · exact Store.eq_of_sameTuple keys tuple.2
  · rintro rfl
    exact Store.sameTuple_equivalence.refl _

/-- A record is on the path of exact keys as they are read back if it has the keys that are read. -/
theorem onPath_settle_iff_eq_tupleAt
    (exact : ∀ g ∈ grouping, shape.PathIs FieldType.isExact g.selector)
    {path : List Value} (deep : path.length = grouping.length)
    (keys : ∀ k ∈ path, k.isExact = true) {record : Value}
    (conforms : shape.conforms record = true) :
    onPath (keyOf (tupleAt shape grouping)) (path.map Value.settle) record = true
      ↔ path.map Value.settle = tupleAt shape grouping record := by
  have settled : ∀ k ∈ path.map Value.settle, k.isExact = true :=
    List.forall_mem_map.2 fun k hk => k.isExact_settle.trans (keys k hk)
  exact onPath_iff_eq_tupleAt exact ((List.length_map _).trans deep) settled conforms

section Keys

variable (keys : ∀ g ∈ grouping, g.selector ≠ Criteria.negationMark
  ∧ shape.PathIs FieldType.hasLiterals g.selector)
include keys

/-- Selectors whose values have literals are exact. -/
theorem pathIs_isExact : ∀ g ∈ grouping, shape.PathIs FieldType.isExact g.selector :=
  fun g hg a ha => FieldType.isExact_of_hasLiterals ((keys g hg).2 a ha)

/-- The keys of an innermost group are keys of the selectors. -/
theorem isKey_of_isLeaf (resolve : Loader.Resolve shape grouping) {records : List Value}
    (conform : ∀ r ∈ records, shape.conforms r = true) {leaf : Leaf}
    (h : IsLeaf (keyOf (tupleAt shape grouping)) records grouping.length leaf) :
    List.Forall₂ (IsKey shape) (grouping.map Grouping.selector) leaf.path := by
  obtain ⟨accessors, resolve⟩ := resolve
  rw [List.forall₂_map_left_iff, List.forall₂_iff_get]
  refine ⟨h.deep.symm, fun level hg hk => ?_⟩
  obtain ⟨named, literals⟩ := keys _ (List.get_mem grouping ⟨level, hg⟩)
  obtain ⟨a, -, ha⟩ := Outcome.exists_of_mapM_eq_ok resolve (List.get_mem grouping ⟨level, hg⟩)
  have exact := FieldType.isExact_of_hasLiterals (literals a ha)
  obtain ⟨row, hrow, hkey⟩ := h.keys level _ (List.getElem?_eq_getElem hk)
  have key : keyOf (tupleAt shape grouping) row level
      = shape.valueAt (grouping.get ⟨level, hg⟩).selector row := by
    rw [keyOf, keyIn, tupleAt, List.getElem?_map, List.getElem?_eq_getElem hg]
    rfl
  obtain ⟨-, admits⟩ :=
    Shape.read_eq_valueAt ha (FieldType.isDynamic_of_isExact exact) (conform row hrow)
  rw [← key, hkey] at admits
  exact ⟨named, a, ha, literals a ha, admits⟩

end Keys

end Filter

namespace Loader

variable {store : Store} {config : LoaderSettings} {o : LoadRequest} {r : LoadAnswer}
variable {registry : Option Registry} {predicate : Predicate}

/-- Whether a record matches the criteria of a request. -/
def satisfies (store : Store) (config : LoaderSettings) (o : LoadRequest)
    (registry : Option Registry) (record : Value) : Bool :=
  let l := overStore store config
  match ((l.predicateOf o (l.settings o)).run.run ⟨false, [], registry⟩).1 with
  | .ok predicate => predicate.accepts record
  | .error _ => false

/-- Without custom compilers, the predicate of a request is that of its criteria. -/
theorem predicateOf_eq (usual : registry.getD [] = []) (s : Settings) :
    (((overStore store config).predicateOf o s).run.run ⟨false, [], registry⟩).1
      = (Filter.ofCriteria s store.shape o.criteria).mapError LoadFailure.compile := by
  simp only [predicateOf, Filter.ofCriteria]
  cases o.criteria with
  | none => rfl
  | some j =>
    have compiles : Computes (Session.Plain s store.shape) (Session.compileJson j)
        (Criteria.ofJson j >>= Filter.compile s store.shape) :=
      (Computes.lift (Criteria.ofJson j)).bind fun c _ => Session.computes_compile c
    exact congrArg (Except.mapError LoadFailure.compile)
      (compiles.run_eq (Session.plain_fresh usual))

/-- Narrowed criteria are there. -/
theorem criteria_countingAt {path : List Value} {p : Predicate} {s : Settings} {shape : Shape}
    (h : Filter.ofCriteria s shape
      (some (Criteria.narrowed o.criteria (o.group.map Grouping.selector) path)) = .ok p) :
    (o.countingAt path).criteria
      = some (Criteria.narrowed o.criteria (o.group.map Grouping.selector) path) := by
  obtain ⟨c, hc, -⟩ := Outcome.bind_eq_ok.1 h
  obtain ⟨first, rest, hj⟩ := Criteria.array_of_ofJson hc
  rw [LoadRequest.criteria, LoadRequest.countingAt, hj]

/-- A request for a number is answered with that of the store. -/
theorem answer_count (counts : o.isCountQuery = true) {n : Nat}
    (h : store.count false predicate = .ok n) : answer store config o predicate
      = .ok { LoadAnswer.ofData (.records []) with totalCount := n } := by
  rw [answer, if_pos counts, h]
  rfl

/-- The innermost groups of an answer are those of the records that match. -/
theorem isLeaf_of_hasLeaves {shape : Shape} {grouping : List Grouping} (grouped : grouping ≠ [])
    {found : List Value} {gs : List (Group Value)} (h : HasLeaves shape grouping found gs) :
    ∀ leaf ∈ leavesUnder [] gs,
      IsLeaf (keyOf (tupleAt shape grouping)) found grouping.length leaf := by
  obtain ⟨xs, perm, h⟩ := h
  have levels := List.length_pos_of_ne_nil grouped
  intro leaf hleaf
  rw [h] at hleaf
  obtain ⟨deep, keys, counted⟩ :=
    Grouping.isLeaf_outlineAt _ _ (fun level k hk => by cases hk) leaf hleaf
  refine ⟨by rw [deep, List.length_nil]; omega, fun level k hk => ?_, ?_⟩
  · obtain ⟨row, hrow, hkey⟩ := keys level k hk
    exact ⟨row, perm.mem_iff.1 hrow, hkey⟩
  · rw [counted, (perm.filter _).length_eq]

/-- A record that matches is on the path of exactly one innermost group. -/
theorem countP_of_hasLeaves {shape : Shape} {grouping : List Grouping} {found : List Value}
    {gs : List (Group Value)} (h : HasLeaves shape grouping found gs) {record : Value}
    (hrecord : record ∈ found) :
    (leavesUnder [] gs).countP
      (fun leaf => onPath (keyOf (tupleAt shape grouping)) leaf.path record) = 1 := by
  obtain ⟨xs, perm, h⟩ := h
  rw [h]
  exact Grouping.countP_outlineAt _ _ (perm.mem_iff.2 hrecord) (Grouping.onPath_nil record)

section Opening

variable (usual : registry.getD [] = []) (sound : Sound store.shape store.records)
variable (grouped : o.group ≠ [])
variable (asWritten : ((overStore store config).settings o).stringToLower = false)
variable (keys : ∀ g ∈ o.group, g.selector ≠ Criteria.negationMark
  ∧ store.shape.PathIs FieldType.hasLiterals g.selector)
include usual sound grouped asWritten keys

section Leaf

variable {found : List Value} {gs : List (Group Value)} {leaf : Leaf} {record : Value}
variable (hpredicate : Filter.ofCriteria ((overStore store config).settings o) store.shape
  o.criteria = .ok predicate)
variable (shows : Shows store config o predicate r found gs)
include hpredicate shows

/-- The criteria of an innermost group hold where those of the request do and where a record is on
the path of the keys of the group as they are read back. -/
theorem predicateOf_countingAt (hleaf : leaf ∈ leavesUnder [] gs) :
    ∃ p, (((overStore store config).predicateOf (o.countingAt leaf.path)
        ((overStore store config).settings (o.countingAt leaf.path))).run.run
          ⟨false, [], registry⟩).1 = .ok p
      ∧ ∀ record ∈ store.records, p.evaluate record = .ok (predicate.accepts record
        && onPath (keyOf (tupleAt store.shape o.group)) (leaf.path.map Value.settle) record) := by
  have guards : ((overStore store config).settings o).guardNulls = true := rfl
  obtain ⟨decided, -⟩ := Store.select_eq_ok.1 shows.matching
  have isLeaf := isLeaf_of_hasLeaves grouped shows.leaves leaf hleaf
  have conform := (sound.sublist (Store.sublist_of_select shows.matching)).conform
  obtain ⟨p, hp, decides⟩ := Filter.compile_narrowed guards asWritten hpredicate
    (by simpa using grouped) (Filter.isKey_of_isLeaf keys shows.resolve conform isLeaf)
  refine ⟨p, ?_, fun record hrecord => ?_⟩
  · rw [predicateOf_eq usual, criteria_countingAt hp, Outcome.mapError_eq_ok]
    exact hp
  · rw [decides record _ (sound.conform record hrecord) (decided record hrecord),
      Filter.all_hasKeys ((List.length_map _).trans isLeaf.deep)]

/-- A record that matches the criteria of a request matches those of an innermost group if it is on
the path of the keys of the group as they are read back. -/
theorem satisfies_countingAt (hleaf : leaf ∈ leavesUnder [] gs) (hrecord : record ∈ found) :
    satisfies store config (o.countingAt leaf.path) registry record
      = onPath (keyOf (tupleAt store.shape o.group)) (leaf.path.map Value.settle) record := by
  obtain ⟨p, hp, decides⟩ :=
    predicateOf_countingAt usual sound grouped asWritten keys hpredicate shows hleaf
  obtain ⟨-, hfound⟩ := Store.select_eq_ok.1 shows.matching
  rw [← hfound, List.mem_filter] at hrecord
  have accepts := Predicate.accepts_of_evaluate (decides record hrecord.1)
  rw [hrecord.2, Bool.true_and] at accepts
  rw [satisfies, hp]
  exact accepts

/-- A record that matches the criteria of a request matches those of an innermost group if and only
if its keys are those of the group as they are read back. -/
theorem satisfies_countingAt_iff (hleaf : leaf ∈ leavesUnder [] gs) (hrecord : record ∈ found) :
    satisfies store config (o.countingAt leaf.path) registry record = true
      ↔ leaf.path.map Value.settle = tupleAt store.shape o.group record := by
  have isLeaf := isLeaf_of_hasLeaves grouped shows.leaves leaf hleaf
  have conform := (sound.sublist (Store.sublist_of_select shows.matching)).conform
  rw [satisfies_countingAt usual sound grouped asWritten keys hpredicate shows hleaf hrecord]
  exact Filter.onPath_settle_iff_eq_tupleAt (Filter.pathIs_isExact keys) isLeaf.deep
    (Filter.isExact_of_isKey (Filter.isKey_of_isLeaf keys shows.resolve conform isLeaf))
    (conform record hrecord)

/-- The request for the number of records of an innermost group is answered with the number of those
that match its criteria. -/
theorem serve_countingAt_eq (hleaf : leaf ∈ leavesUnder [] gs) :
    ((overStore store config).serve (o.countingAt leaf.path) false registry).1
      = .ok { LoadAnswer.ofData (.records []) with
        totalCount := found.countP fun record =>
          satisfies store config (o.countingAt leaf.path) registry record } := by
  obtain ⟨p, hp, decides⟩ :=
    predicateOf_countingAt usual sound grouped asWritten keys hpredicate shows hleaf
  have counted : answer store config (o.countingAt leaf.path) p = _ :=
    answer_count rfl (Store.count_of_narrowed shows.matching decides)
  have same := List.countP_congr fun record hrecord => Bool.eq_iff_iff.1
    (satisfies_countingAt usual sound grouped asWritten keys hpredicate shows hleaf hrecord)
  rw [serve_eq, same, List.countP_eq_length_filter]
  exact Outcome.bind_eq_ok.2 ⟨p, hp, counted⟩

/-- A record that matches the criteria of a request matches those of exactly one innermost group, if
and only if its keys are settled and no other group has them once its own are read back. -/
theorem countP_satisfies_eq_one_iff (hrecord : record ∈ found) :
    (leavesUnder [] gs).countP (fun leaf =>
        satisfies store config (o.countingAt leaf.path) registry record) = 1
      ↔ Value.AllSettled (tupleAt store.shape o.group record)
        ∧ ∀ leaf ∈ leavesUnder [] gs,
          leaf.path.map Value.settle = tupleAt store.shape o.group record →
            Value.AllSettled leaf.path := by
  have conform := (sound.sublist (Store.sublist_of_select shows.matching)).conform
  have satisfied : ∀ leaf ∈ leavesUnder [] gs,
      satisfies store config (o.countingAt leaf.path) registry record = true
        ↔ leaf.path.map Value.settle = tupleAt store.shape o.group record := fun leaf hleaf =>
    satisfies_countingAt_iff usual sound grouped asWritten keys hpredicate shows hleaf hrecord
  have onPath_iff : ∀ leaf ∈ leavesUnder [] gs,
      onPath (keyOf (tupleAt store.shape o.group)) leaf.path record = true
        ↔ leaf.path = tupleAt store.shape o.group record := by
    intro leaf hleaf
    have isLeaf := isLeaf_of_hasLeaves grouped shows.leaves leaf hleaf
    exact Filter.onPath_iff_eq_tupleAt (Filter.pathIs_isExact keys) isLeaf.deep
      (Filter.isExact_of_isKey (Filter.isKey_of_isLeaf keys shows.resolve conform isLeaf))
      (conform record hrecord)
  -- a record is on the path of its own group, and of no other
  exact Filter.countP_settle_eq_one_iff onPath_iff satisfied
    (countP_of_hasLeaves shows.leaves hrecord)

end Leaf

/-- The narrowed criteria of an innermost group match the records that have its keys as they are
read back: as many as it counts, if no key is a moment that is written as another one. A record that
matches the criteria of a request matches the narrowed criteria of exactly one innermost group, if
and only if no key of it is such a moment and no group with such a moment is read back as its
keys. -/
theorem serve_countingAt (groups : o.isCountQuery = false)
    (served : ((overStore store config).serve o false registry).1 = .ok r) :
    ∃ found gs, matching store config o registry = .ok found
      ∧ ((overStore store config.unlimited).serve o.unpaged false registry).1
        = .ok { r with data := .groups gs }
      ∧ r.data = .groups (page o.skip (o.pageSize config.maxTake) gs)
      ∧ (∀ leaf ∈ leavesUnder [] gs, leaf.path.length = o.group.length
        ∧ (∀ record ∈ found, satisfies store config (o.countingAt leaf.path) registry record = true
          ↔ leaf.path.map Value.settle = tupleAt store.shape o.group record)
        ∧ ∃ n m : Nat, leaf.count = some n
          ∧ ((overStore store config).serve (o.countingAt leaf.path) false registry).1
            = .ok { LoadAnswer.ofData (.records []) with totalCount := m }
          ∧ m = found.countP (satisfies store config (o.countingAt leaf.path) registry)
          ∧ (Value.AllSettled leaf.path → m = n))
      ∧ ∀ record ∈ found,
        ((leavesUnder [] gs).countP (fun leaf =>
            satisfies store config (o.countingAt leaf.path) registry record) = 1
          ↔ Value.AllSettled (tupleAt store.shape o.group record)
            ∧ ∀ leaf ∈ leavesUnder [] gs,
              leaf.path.map Value.settle = tupleAt store.shape o.group record →
                Value.AllSettled leaf.path) := by
  rw [serve_eq] at served
  obtain ⟨predicate, hpredicate, answered⟩ := Outcome.bind_eq_ok.1 served
  obtain ⟨found, gs, shows, whole⟩ :=
    shows_of_answer grouped (Filter.pathIs_isExact keys) sound groups answered
  -- the predicate that was compiled with the help of a session is that of the criteria
  have compiled := hpredicate
  rw [predicateOf_eq usual, Outcome.mapError_eq_ok] at compiled
  refine ⟨found, gs, ?_, ?_, shows.shown, fun leaf hleaf => ?_, fun record hrecord =>
    countP_satisfies_eq_one_iff usual sound grouped asWritten keys compiled shows hrecord⟩
  · exact Outcome.bind_eq_ok.2 ⟨predicate, hpredicate,
      Outcome.mapError_eq_ok.2 (Store.selected_eq_ok.2 shows.matching)⟩
  · rw [serve_eq]
    exact Outcome.bind_eq_ok.2 ⟨predicate, hpredicate, whole⟩
  · have isLeaf := isLeaf_of_hasLeaves grouped shows.leaves leaf hleaf
    refine ⟨isLeaf.deep, fun record => satisfies_countingAt_iff usual sound grouped asWritten keys
      compiled shows hleaf, _, _, isLeaf.counted, serve_countingAt_eq usual sound grouped asWritten
      keys compiled shows hleaf, rfl, fun settled => ?_⟩
    rw [← List.countP_eq_length_filter]
    refine List.countP_congr fun record hrecord => ?_
    rw [satisfies_countingAt usual sound grouped asWritten keys compiled shows hleaf hrecord,
      Value.map_settle_eq_self settled]

end Opening

/-- Visits by town and day, where both may be missing: one group stands for two visits without a
place or a town. -/
theorem serve_countingAt_visits :
    let place := Shape.mk "Place" [.mk "town" .string true]
    let shape := Shape.mk "Visit" [.mk "place" (.object place) true, .mk "day" .dateTime true,
      .plain "size" .int32]
    let visit (place day : Value) (size : Int64) :=
      Value.object [("place", place), ("day", day), ("size", .int size)]
    let town (name : Value) := Value.object [("town", name)]
    let eve := Value.dateTime ⟨⟨2020, 12, 31, 18, 30, 0, 500⟩, by decide⟩
    let store : Store := ⟨shape, [visit (town (.string "Ulm")) eve 3, visit .null .null 1,
      visit (town (.string "Ulm")) .null 2, visit (town (.string "ulm")) eve 4,
      visit (town (.string "Ulm")) eve 9, visit (town .null) .null 5]⟩
    let o : LoadRequest := { LoadRequest.everything with
      take := some 1, filter := some (.array [.string "size", .string "<", .int 9])
      group := [.on "place.town", (Grouping.on "day").collapsed] }
    ∃ (found : List Value) (gs : List (Group Value)), matching store .standard o none = .ok found
      ∧ (leavesUnder [] gs).map Leaf.count = [some 2, some 1, some 1, some 1]
      ∧ (∀ leaf ∈ leavesUnder [] gs, Value.AllSettled leaf.path)
      ∧ (∀ leaf ∈ leavesUnder [] gs, ∃ n : Nat, leaf.count = some n
        ∧ ((overStore store .standard).serve (o.countingAt leaf.path) false none).1
          = .ok { LoadAnswer.ofData (.records []) with totalCount := n })
      ∧ ∀ record ∈ found, (leavesUnder [] gs).countP (fun leaf =>
        satisfies store .standard (o.countingAt leaf.path) none record) = 1 := by
  intro place shape visit town eve store o
  have sound : Sound store.shape store.records := ⟨by decide +kernel, by decide +kernel⟩
  have keys : ∀ g ∈ o.group, g.selector ≠ Criteria.negationMark
      ∧ store.shape.PathIs FieldType.hasLiterals g.selector := by decide +kernel
  have counts : ((overStore store .standard).serve o.unpaged false none).1.toOption.map
      (fun r => match r.data with
        | .groups gs => ((leavesUnder [] gs).map Leaf.count,
          decide (∀ leaf ∈ leavesUnder [] gs, Value.AllSettled leaf.path))
        | .records _ => ([], false))
      = some ([some 2, some 1, some 1, some 1], true) := by decide +kernel
  have tuples : (matching store .standard o none).toOption.map (fun found =>
      decide (∀ record ∈ found, Value.AllSettled (tupleAt store.shape o.group record)))
      = some true := by decide +kernel
  have served : (((overStore store .standard).serve o false none).1.toOption.isSome) = true := by
    decide +kernel
  have grouped : o.group ≠ [] := List.cons_ne_nil _ _
  have asWritten : ((overStore store .standard).settings o).stringToLower = false := rfl
  have groups : o.isCountQuery = false := rfl
  clear_value o store
  generalize hr : ((overStore store .standard).serve o false none).1 = outcome at served
  rcases outcome with _ | r
  · cases served
  · obtain ⟨found, gs, matched, whole, -, opened, once⟩ :=
      serve_countingAt rfl sound grouped asWritten keys groups hr
    have unlimited : LoaderSettings.standard.unlimited = .standard := rfl
    rw [unlimited] at whole
    rw [whole] at counts
    obtain ⟨counts, settled⟩ := Prod.mk.inj (Option.some.inj counts)
    have settled := of_decide_eq_true settled
    rw [matched] at tuples
    have tuples := of_decide_eq_true (Option.some.inj tuples)
    refine ⟨found, gs, matched, counts, settled, fun leaf hleaf => ?_, fun record hrecord =>
      (once record hrecord).2 ⟨tuples record hrecord, fun leaf hleaf _ => settled leaf hleaf⟩⟩
    obtain ⟨-, -, n, m, counted, answered, -, same⟩ := opened leaf hleaf
    exact ⟨n, counted, same (settled leaf hleaf) ▸ answered⟩

/-- One visit in a second that is filled and not the last one of its minute: its group counts one,
and the request for the number of its visits finds none, since the text of the second is that of the
next one. -/
theorem not_serve_countingAt_filled :
    let shape := Shape.mk "Visit" [.plain "day" .dateTime]
    let filled : Value := .dateTime ⟨⟨2016, 12, 31, 23, 56, 4, 1333333333⟩, by decide⟩
    let store : Store := ⟨shape, [.object [("day", filled)]]⟩
    let o : LoadRequest :=
      { LoadRequest.everything with group := [(Grouping.on "day").collapsed] }
    Sound store.shape store.records
      ∧ ((overStore store .standard).settings o).stringToLower = false
      ∧ (∀ g ∈ o.group, g.selector ≠ Criteria.negationMark
        ∧ store.shape.PathIs FieldType.hasLiterals g.selector)
      ∧ ((overStore store .standard).serve o false none).1
        = .ok (LoadAnswer.ofData (.groups [.mk filled .dropped (some 1) none]))
      ∧ ((overStore store .standard).serve (o.countingAt [filled]) false none).1
        = .ok { LoadAnswer.ofData (.records []) with totalCount := 0 } := by
  intro shape filled store o
  exact ⟨⟨by decide +kernel, by decide +kernel⟩, rfl, by decide +kernel, by rfl, by rfl⟩

end Loader

end DataGrid
