import DataGrid.Proofs.Planning

/-!
# The layout of plans

A plan that is made for a request is `LaidOut`: every summary has columns of its own, in the order
of the request, and is read from them by one entry; all counts are read from the last column.
Making a plan fails with the first summary that does not resolve (`Projection.make_laidOut`).
-/

namespace DataGrid

open Resolver

/-- What resolving a summary gives by itself. -/
def Summary.outcome (shape : Shape) (guardNulls : Bool) (s : Summary) :
    Except CompileError (Option Accessor) :=
  (s.resolve.run.run (.fresh shape guardNulls)).1

/-- The position of a row that is read. -/
def Source.position? : Source → Option Nat
  | .position n => some n
  | .accessor _ => none

/-- The positions of a row that an entry of a plan reads. -/
def PlannedSummary.positions (a : PlannedSummary) : List Nat :=
  (a.measure.field.toList ++ a.measure.countField.toList).filterMap Source.position?

/-- Whether a column is computed for one summary. -/
def Column.isSummary : Column → Bool
  | .sum _ | .min _ | .max _ | .avgSum _ | .avgCount _ => true
  | .record | .key _ | .rowCount => false

namespace Projection

/-- The columns that are computed for a summary. -/
inductive Takes : Summary → List Column → Prop where
  /-- one for a sum -/
  | sum (x : String) : Takes ⟨some x, .sum⟩ [.sum x]
  /-- one for a least value -/
  | min (x : String) : Takes ⟨some x, .min⟩ [.min x]
  /-- one for a greatest value -/
  | max (x : String) : Takes ⟨some x, .max⟩ [.max x]
  /-- a pair for an average -/
  | avg (x : String) : Takes ⟨some x, .avg⟩ [.avgSum x, .avgCount x]
  /-- a pair for an average of averages -/
  | remoteAvg (x : String) : Takes ⟨some x, .remoteAvg⟩ [.avgSum x, .avgCount x]
  /-- none for a count -/
  | count (x? : Option String) : Takes ⟨x?, .count⟩ []
  /-- none for a count of counts -/
  | remoteCount (x? : Option String) : Takes ⟨x?, .remoteCount⟩ []

/-- An entry of a plan computes a summary from the columns at its position. -/
inductive Answers (p : Projection) : Summary → PlannedSummary → Prop where
  /-- a sum of sums -/
  | sum {x : String} {n : Nat} (h : p.columns[n]? = some (.sum x)) :
    Answers p ⟨some x, .sum⟩ ⟨.sum, n⟩
  /-- a least value of least values -/
  | min {x : String} {n : Nat} (h : p.columns[n]? = some (.min x)) :
    Answers p ⟨some x, .min⟩ ⟨.min, n⟩
  /-- a greatest value of greatest values -/
  | max {x : String} {n : Nat} (h : p.columns[n]? = some (.max x)) :
    Answers p ⟨some x, .max⟩ ⟨.max, n⟩
  /-- an average of sums and the counts right after them -/
  | avg {x : String} {n : Nat} (sums : p.columns[n]? = some (.avgSum x))
    (counts : p.columns[n + 1]? = some (.avgCount x)) : Answers p ⟨some x, .avg⟩ ⟨.remoteAvg, n⟩
  /-- the same for an average of averages -/
  | remoteAvg {x : String} {n : Nat} (sums : p.columns[n]? = some (.avgSum x))
    (counts : p.columns[n + 1]? = some (.avgCount x)) :
    Answers p ⟨some x, .remoteAvg⟩ ⟨.remoteAvg, n⟩
  /-- a sum of numbers of rows -/
  | count {x? : Option String} (h : p.columns[p.countPosition]? = some .rowCount) :
    Answers p ⟨x?, .count⟩ ⟨.remoteCount, p.countPosition⟩
  /-- the same for a count of counts -/
  | remoteCount {x? : Option String} (h : p.columns[p.countPosition]? = some .rowCount) :
    Answers p ⟨x?, .remoteCount⟩ ⟨.remoteCount, p.countPosition⟩

/-- What the plan of a request looks like. -/
structure LaidOut (levels : Nat) (total group : List Summary) (p : Projection) : Prop where
  /-- it has the levels of the request -/
  groupCount : p.groupCount = levels
  /-- the record, the keys, the columns of each summary, and the number of rows -/
  columns : ∃ front back, List.Forall₂ Takes total front ∧ List.Forall₂ Takes group back
    ∧ p.columns = [.record] ++ (List.range levels).map .key ++ front.flatten ++ back.flatten
      ++ [.rowCount]
  /-- the number of rows stands last -/
  count : p.countPosition + 1 = p.width
  /-- an entry for each total, and one for the number of all rows -/
  total : List.Forall₂ (Answers p) (total ++ [Summary.rows]) p.total
  /-- an entry for each summary of groups -/
  group : List.Forall₂ (Answers p) group p.group
  /-- one entry reads each column that is computed for a summary -/
  readOnce : ∀ i c, p.columns[i]? = some c → c.isSummary = true →
    (p.total ++ p.group).countP (fun a => decide (i ∈ a.positions)) = 1

variable {shape : Shape} {guardNulls : Bool} {levels : Nat} {total group : List Summary}

/-! ### Columns and entries -/

/-- A summary that resolves has the selector that its kind needs. -/
theorem takes_columnsFor {s : Summary} {a? : Option Accessor}
    (h : s.resolved shape guardNulls = .ok a?) : Takes s (columnsFor s) := by
  obtain ⟨selector, kind⟩ := s
  have selected (reads : kind.readsSelector = true) : ∃ x, selector = some x := by
    rcases Summary.resolved_eq_ok h with ⟨none, -⟩ | ⟨-, x, a, hx, -⟩
    · rw [reads] at none
      cases none
    · exact ⟨x, hx⟩
  cases kind with
  | count => exact .count selector
  | remoteCount => exact .remoteCount selector
  | sum =>
    obtain ⟨x, rfl⟩ := selected rfl
    exact .sum x
  | min =>
    obtain ⟨x, rfl⟩ := selected rfl
    exact .min x
  | max =>
    obtain ⟨x, rfl⟩ := selected rfl
    exact .max x
  | avg =>
    obtain ⟨x, rfl⟩ := selected rfl
    exact .avg x
  | remoteAvg =>
    obtain ⟨x, rfl⟩ := selected rfl
    exact .remoteAvg x

/-- An entry that reads the columns of a summary computes it. -/
theorem answers_settle {p : Projection} {s : Summary} {columns : List Column} {a : PlannedSummary}
    (takes : Takes s columns) (reads : Reads p.columns s a)
    (count : p.columns[p.countPosition]? = some .rowCount) :
    Answers p s (settle p.countPosition a) := by
  obtain ⟨kind, n⟩ := a
  obtain ⟨rfl, rest, hrest⟩ := reads
  have at_ (i : Nat) : p.columns[n + i]? = (columnsFor s ++ rest)[i]? := by
    rw [hrest, List.getElem?_drop]
  cases takes with
  | sum x => exact .sum (at_ 0)
  | min x => exact .min (at_ 0)
  | max x => exact .max (at_ 0)
  | avg x => exact .avg (at_ 0) (at_ 1)
  | remoteAvg x => exact .remoteAvg (at_ 0) (at_ 1)
  | count x? => exact .count count
  | remoteCount x? => exact .remoteCount count

/-- An entry that reads its own columns answers its summary, and one that counts reads the shared
column. -/
theorem answers_settled {p : Projection} {ss : List Summary} {as : List PlannedSummary}
    (takes : ∀ s ∈ ss, Takes s (columnsFor s)) (reads : List.Forall₂ (Reads p.columns) ss as)
    (count : p.columns[p.countPosition]? = some .rowCount) :
    List.Forall₂ (Answers p) ss (as.map (settle p.countPosition)) := by
  rw [List.forall₂_map_right_iff]
  exact ((List.forall₂_and_left _ _).2 ⟨takes, reads⟩).imp
    fun _ _ ⟨takes, reads⟩ => answers_settle takes reads count

/-! ### What entries read -/

/-- But for the position of counts, an entry reads the columns of its summary. -/
theorem mem_positions_settle {s : Summary} {n countPosition i : Nat} (h : i ≠ countPosition) :
    i ∈ (settle countPosition ⟨flatKind s.kind, n⟩).positions
      ↔ n ≤ i ∧ i < n + (columnsFor s).length := by
  obtain ⟨selector, kind⟩ := s
  cases kind with
  | sum | min | max =>
    show i ∈ [n] ↔ n ≤ i ∧ i < n + 1
    rw [List.mem_singleton]
    omega
  | avg | remoteAvg =>
    show i ∈ [n, n + 1] ↔ n ≤ i ∧ i < n + 2
    rw [List.mem_pair]
    omega
  | count | remoteCount =>
    show i ∈ [countPosition] ↔ n ≤ i ∧ i < n + 0
    rw [List.mem_singleton]
    omega

/-- But for the position of counts, one entry reads each of the columns of its summaries. -/
theorem countP_planned {ss : List Summary} {n countPosition i : Nat} (h : i ≠ countPosition) :
    ((planned n ss).map (settle countPosition)).countP (fun a => decide (i ∈ a.positions))
      = if n ≤ i ∧ i < n + (ss.flatMap columnsFor).length then 1 else 0 := by
  induction ss generalizing n with
  | nil =>
    rw [if_neg (by simp only [List.flatMap_nil, List.length_nil]; omega)]
    rfl
  | cons s ss ih =>
    rw [planned, List.map_cons, List.countP_cons, ih, List.flatMap_cons, List.length_append]
    simp only [decide_eq_true_iff, mem_positions_settle h]
    split_ifs <;> omega

/-- The columns in front are no columns of summaries. -/
theorem isSummary_of_mem_keys {c : Column}
    (h : c ∈ Column.record :: (List.range levels).map Column.key) : c.isSummary = false := by
  rcases List.mem_cons.1 h with rfl | h
  · rfl
  · obtain ⟨level, -, rfl⟩ := List.mem_map.1 h
    rfl

/-- Columns that are computed for summaries stand between the keys and the number of rows. -/
theorem between_of_isSummary {i : Nat} {c : Column}
    (hc : (planOf levels total group).columns[i]? = some c) (summary : c.isSummary = true) :
    (Column.record :: (List.range levels).map Column.key).length ≤ i
      ∧ i < (planOf levels total group).countPosition := by
  constructor
  · by_contra within
    rw [planOf, List.append_assoc, List.append_assoc,
      List.getElem?_append_left (Nat.lt_of_not_le within)] at hc
    rw [isSummary_of_mem_keys (List.mem_of_getElem? hc)] at summary
    cases summary
  · have bound := (List.getElem?_eq_some_iff.1 hc).1
    have other : i ≠ (planOf levels total group).countPosition := by
      rintro rfl
      rw [count_planOf] at hc
      cases hc
      cases summary
    simp only [planOf, List.length_append, List.length_singleton] at bound other ⊢
    omega

/-- One entry of a plan reads each column that is computed for a summary. -/
theorem readOnce_planOf {i : Nat} {c : Column}
    (hc : (planOf levels total group).columns[i]? = some c) (summary : c.isSummary = true) :
    ((planOf levels total group).total ++ (planOf levels total group).group).countP
      (fun a => decide (i ∈ a.positions)) = 1 := by
  obtain ⟨low, high⟩ := between_of_isSummary hc summary
  have last : [(⟨.remoteCount, (planOf levels total group).countPosition⟩ : PlannedSummary)].countP
      (fun a => decide (i ∈ a.positions)) = 0 := by
    rw [List.countP_eq_zero]
    intro a ha
    obtain rfl := List.mem_singleton.1 ha
    rw [decide_eq_true_iff]
    exact fun h => Nat.ne_of_lt high (List.mem_singleton.1 h)
  have other := Nat.ne_of_lt high
  simp only [planOf] at low high other last ⊢
  rw [List.countP_append, List.countP_append, last, countP_planned other, countP_planned other]
  simp only [List.length_append] at low high ⊢
  split_ifs <;> omega

/-- The plan of summaries is laid out as a plan is to be. -/
theorem laidOut_planOf (htotal : ∀ s ∈ total, Takes s (columnsFor s))
    (hgroup : ∀ s ∈ group, Takes s (columnsFor s)) :
    LaidOut levels total group (planOf levels total group) where
  groupCount := rfl
  columns := by
    refine ⟨total.map columnsFor, group.map columnsFor, ?_, ?_, ?_⟩
    · rwa [List.forall₂_map_right_iff, List.forall₂_same]
    · rwa [List.forall₂_map_right_iff, List.forall₂_same]
    · simp only [planOf, List.flatMap_def, List.singleton_append]
  count := by simp only [planOf, width, List.length_append, List.length_singleton]
  total := List.rel_append (answers_settled htotal reads_total count_planOf)
    (.cons (.count count_planOf) .nil)
  group := answers_settled hgroup reads_group count_planOf
  readOnce := fun _ _ => readOnce_planOf

/-! ### Making plans -/

/-- The plan that a resolver makes for a request. -/
def made (r : Resolver) (levels : Nat) (total group : List Summary) :
    Except CompileError Projection :=
  ((make levels total group).run.run r).1

theorem outcome_eq (s : Summary) : s.outcome shape guardNulls = s.resolved shape guardNulls :=
  s.computes_resolve.run_eq serves_fresh

/-- A plan is made exactly if all selectors resolve, with the first error otherwise. -/
theorem made_eq {r : Resolver} (serves : r.Serves shape guardNulls) :
    made r levels total group = ((total ++ group).mapM (Summary.resolved shape guardNulls)).map
      fun _ => planOf levels total group := by
  rw [made, (computes_make levels total group).run_eq serves, List.mapM_append]
  cases total.mapM (Summary.resolved shape guardNulls) with
  | error e => rfl
  | ok _ => cases group.mapM (Summary.resolved shape guardNulls) <;> rfl

/-- A plan that is made for a request is laid out for it. None is made exactly if a summary does not
resolve by itself, and the first that does not, totals before those of groups, gives the error. -/
theorem make_laidOut {r : Resolver} (serves : r.Serves shape guardNulls) (levels : Nat)
    (total group : List Summary) :
    (∀ p, made r levels total group = .ok p → LaidOut levels total group p)
    ∧ ∀ e, made r levels total group = .error e ↔ ∃ before s after,
        total ++ group = before ++ s :: after
          ∧ (∀ b ∈ before, ∃ a?, b.outcome shape guardNulls = .ok a?)
          ∧ s.outcome shape guardNulls = .error e := by
  rw [made_eq serves]
  refine ⟨fun p h => ?_, fun e => ?_⟩
  · obtain ⟨as, has, rfl⟩ := Outcome.map_eq_ok.1 h
    have takes : ∀ s ∈ total ++ group, Takes s (columnsFor s) := by
      intro s hs
      obtain ⟨a?, -, ha⟩ := Outcome.exists_of_mapM_eq_ok has hs
      exact takes_columnsFor ha
    rw [List.forall_mem_append] at takes
    exact laidOut_planOf takes.1 takes.2
  · simp only [Outcome.map_eq_error, Outcome.mapM_eq_error, outcome_eq]

/-- Counts take no columns, wherever they stand; a sum of texts is refused before a least value
without a selector. -/
theorem make_laidOut_counts_between :
    let shape := Shape.mk "Product"
      [Field.plain "name" .string, Field.plain "price" .float64, Field.plain "stock" .int32]
    let r := ((Resolver.fresh shape false).lookup "stock").2
    let total : List Summary := [.rows, ⟨some "stock", .sum⟩]
    let group : List Summary := [⟨some "price", .avg⟩, .rows, ⟨some "price", .max⟩]
    let p : Projection := {
      groupCount := 1
      columns := [.record, .key 0, .sum "stock", .avgSum "price", .avgCount "price", .max "price",
        .rowCount]
      total := [⟨.remoteCount, 6⟩, ⟨.sum, 2⟩, ⟨.remoteCount, 6⟩]
      group := [⟨.remoteAvg, 3⟩, ⟨.remoteCount, 6⟩, ⟨.max, 5⟩]
      countPosition := 6 }
    r.Serves shape false ∧ made r 1 total group = .ok p ∧ LaidOut 1 total group p
      ∧ made r 1 [.rows, ⟨some "name", .sum⟩] [⟨none, .min⟩]
        = .error (.invalidAggregate "sum" (.unfitType "name" "string")) := by
  intro shape r total group p
  have serves : r.Serves shape false := Resolver.lookup_sound serves_fresh.1 "stock"
  have h : made r 1 total group = .ok p := rfl
  refine ⟨serves, h, (make_laidOut serves 1 total group).1 p h, ?_⟩
  refine ((make_laidOut serves 1 [.rows, ⟨some "name", .sum⟩] [⟨none, .min⟩]).2 _).2
    ⟨[.rows], ⟨some "name", .sum⟩, [⟨none, .min⟩], rfl, fun b hb => ⟨none, ?_⟩, rfl⟩
  rw [List.mem_singleton.1 hb]
  rfl

end Projection

end DataGrid
