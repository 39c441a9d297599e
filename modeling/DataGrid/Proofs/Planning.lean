import DataGrid.Projection.Regroup
import DataGrid.Proofs.Accessor.Values
import DataGrid.Proofs.Outcome
import DataGrid.Proofs.Resolving

/-!
# What planning computes

Summaries and plans do not depend on what a resolver remembers.

* `Summary.resolved` is the accessor that a summary reads.
* `Projection.planOf` is the plan of summaries that all resolve. Every summary of it reads the
  columns that it needs (`Projection.planned_reads`).
-/

namespace DataGrid

open Resolver

variable {shape : Shape} {guardNulls : Bool}

namespace Summary

/-- The accessor of the selector of a summary; none if the kind reads no selector. -/
def resolved (shape : Shape) (guardNulls : Bool) (s : Summary) :
    Except CompileError (Option Accessor) :=
  if !s.kind.readsSelector then .ok none
  else
    match s.selector with
    | none => .error (.invalidAggregate s.kind.name .noSelector)
    | some selector => Accessor.ofPath shape guardNulls selector >>= s.check selector

/-- A summary resolves the same whatever is remembered of paths. -/
theorem computes_resolve (s : Summary) :
    Computes (Serves shape guardNulls) s.resolve (s.resolved shape guardNulls) := by
  rw [resolve, resolved]
  cases s.kind.readsSelector with
  | false => exact .pure none
  | true =>
    cases s.selector with
    | none => exact .throw _
    | some selector =>
      exact (Resolver.computes_resolve selector).bind fun a _ => .lift _

/-- A summary that resolves reads no selector, or one whose type has what its kind needs. -/
theorem resolved_eq_ok {s : Summary} {a? : Option Accessor}
    (h : s.resolved shape guardNulls = .ok a?) :
    s.kind.readsSelector = false ∧ a? = none ∨ s.kind.readsSelector = true
      ∧ ∃ selector a, s.selector = some selector
        ∧ Accessor.ofPath shape guardNulls selector = .ok a ∧ a? = some a := by
  rw [resolved] at h
  split at h
  next reads =>
    cases h
    exact .inl ⟨by simpa using reads, rfl⟩
  next reads =>
    split at h
    next => cases h
    next selector hselector =>
      obtain ⟨a, ha, h⟩ := Outcome.bind_eq_ok.1 h
      rw [check] at h
      split at h
      · cases h
        exact .inr ⟨by simpa using reads, selector, a, hselector, ha, rfl⟩
      · cases h

end Summary

namespace Rollup

/-- The measure over records of a summary and its accessor. -/
def recordMeasure (s : Summary) (a? : Option Accessor) : Measure := .of s.kind (a?.map .accessor)

/-- The measures over records of summaries. -/
def measures (shape : Shape) (guardNulls : Bool) (ss : List Summary) :
    Except CompileError (List Measure) :=
  ss.mapM fun s => (s.resolved shape guardNulls).map (recordMeasure s)

/-- So a summary gets its measure, -/
theorem computes_measureOf (s : Summary) : Computes (Serves shape guardNulls) (measureOf s)
    ((s.resolved shape guardNulls).map (recordMeasure s)) := by
  have resolves : Computes (Serves shape guardNulls) s.resolve (s.resolved shape guardNulls) :=
    s.computes_resolve
  have h := resolves.bind fun a? _ => .pure (recordMeasure s a?)
  cases hs : s.resolved shape guardNulls <;> rw [hs] at h <;> exact h

/-- The aggregates over records of summaries. -/
def rollupOf (shape : Shape) (guardNulls : Bool) (total group : List Summary) :
    Except CompileError Rollup := do
  let total ← measures shape guardNulls total
  return ⟨total, ← measures shape guardNulls group⟩

/-- and summaries of totals and of groups their rollup. -/
theorem computes_overRecords (total group : List Summary) :
    Computes (Serves shape guardNulls) (overRecords total group)
      (rollupOf shape guardNulls total group) :=
  (Computes.mapM fun s _ => computes_measureOf s).bind fun _ _ =>
    (Computes.mapM fun s _ => computes_measureOf s).bind fun _ _ => .pure _

/-- A rollup has the measures of the totals and those of the groups. -/
theorem rollupOf_eq_ok {total group : List Summary} {r : Rollup} :
    rollupOf shape guardNulls total group = .ok r
      ↔ measures shape guardNulls total = .ok r.total
        ∧ measures shape guardNulls group = .ok r.group := by
  rw [rollupOf, Outcome.bind_eq_ok]
  constructor
  · rintro ⟨total', htotal, h⟩
    obtain ⟨group', hgroup, h⟩ := Outcome.bind_eq_ok.1 h
    cases h
    exact ⟨htotal, hgroup⟩
  · rintro ⟨htotal, hgroup⟩
    exact ⟨r.total, htotal, Outcome.bind_eq_ok.2 ⟨r.group, hgroup, rfl⟩⟩

end Rollup

namespace Projection

/-- The columns of a summary. -/
def columnsFor (s : Summary) : List Column := columnsOf s.kind (s.selector.getD "")

/-- What reads the columns of summaries that stand from a position on. -/
def planned : Nat → List Summary → List PlannedSummary
  | _, [] => []
  | n, s :: rest => ⟨flatKind s.kind, n⟩ :: planned (n + (columnsFor s).length) rest

/-- The columns of a summary that resolves are those of its selector. -/
theorem columnsOf_path {s : Summary} {a? : Option Accessor}
    (h : s.resolved shape guardNulls = .ok a?) :
    columnsOf s.kind ((a?.map Accessor.path).getD "") = columnsFor s := by
  rw [columnsFor]
  rcases Summary.resolved_eq_ok h with ⟨none, -⟩ | ⟨-, selector, a, hselector, ha, rfl⟩
  · cases hkind : s.kind <;> rw [hkind] at none <;> first | rfl | cases none
  · obtain ⟨r, -, rfl⟩ := Accessor.ofPath_eq_ok ha
    rw [hselector]
    rfl

/-- Columns are appended if all selectors resolve, and each entry is placed at the first of its
own. -/
theorem computes_appendColumns (ss : List Summary) (columns : List Column) :
    Computes (Serves shape guardNulls) (appendColumns ss columns) (do
      let _ ← ss.mapM (·.resolved shape guardNulls)
      return (planned columns.length ss, columns ++ ss.flatMap columnsFor)) := by
  induction ss generalizing columns with
  | nil =>
    rw [List.flatMap_nil, List.append_nil]
    exact .pure ([], columns)
  | cons s rest ih =>
    have h := (s.computes_resolve).bind fun a? _ =>
      (ih (columns ++ columnsOf s.kind ((a?.map Accessor.path).getD ""))).bind fun tail _ =>
        .pure (⟨flatKind s.kind, columns.length⟩ :: tail.1, tail.2)
    refine h.of_eq ?_
    rw [List.mapM_cons]
    cases hs : s.resolved shape guardNulls with
    | error e => rfl
    | ok a? =>
      cases rest.mapM (·.resolved shape guardNulls) with
      | error e => rfl
      | ok as => simp [bind, Except.bind, pure, Except.pure, planned, columnsOf_path hs]

/-- The plan of summaries that all resolve. -/
def planOf (levels : Nat) (total group : List Summary) : Projection :=
  let keys := .record :: (List.range levels).map Column.key
  let columns := keys ++ total.flatMap columnsFor ++ group.flatMap columnsFor
  { groupCount := levels
    columns := columns ++ [.rowCount]
    total := (planned keys.length total).map (settle columns.length)
      ++ [⟨.remoteCount, columns.length⟩]
    group := (planned (keys ++ total.flatMap columnsFor).length group).map (settle columns.length)
    countPosition := columns.length }

/-- A plan is made if all selectors resolve, those of the totals first. -/
theorem computes_make (levels : Nat) (total group : List Summary) :
    Computes (Serves shape guardNulls) (make levels total group) (do
      let _ ← total.mapM (·.resolved shape guardNulls)
      let _ ← group.mapM (·.resolved shape guardNulls)
      return planOf levels total group) := by
  have appends (ss : List Summary) (columns : List Column) :
      Computes (Serves shape guardNulls) (appendColumns ss columns) _ :=
    computes_appendColumns ss columns
  have h := (appends total (.record :: (List.range levels).map Column.key)).bind fun front _ =>
      (appends group front.2).bind fun back _ =>
        .pure ({
          groupCount := levels
          columns := back.2 ++ [.rowCount]
          total := front.1.map (settle back.2.length) ++ [⟨.remoteCount, back.2.length⟩]
          group := back.1.map (settle back.2.length)
          countPosition := back.2.length } : Projection)
  refine h.of_eq ?_
  cases total.mapM (·.resolved shape guardNulls) with
  | error e => rfl
  | ok _ => cases group.mapM (·.resolved shape guardNulls) <;> rfl

/-- A summary of a plan stands for a summary of the request if it reads the columns of it. -/
def Reads (columns : List Column) (s : Summary) (p : PlannedSummary) : Prop :=
  p.kind = flatKind s.kind ∧ columnsFor s <+: columns.drop p.position

/-- Each entry reads the columns that stand from its position on. -/
theorem planned_reads {columns rest : List Column} {n : Nat} {ss : List Summary}
    (h : columns.drop n = ss.flatMap columnsFor ++ rest) :
    List.Forall₂ (Reads columns) ss (planned n ss) := by
  induction ss generalizing n with
  | nil => exact .nil
  | cons s ss ih =>
    rw [List.flatMap_cons, List.append_assoc] at h
    -- each summary reads its own columns, and the next one those behind them
    refine .cons ⟨rfl, h ▸ List.prefix_append _ _⟩ (ih ?_)
    rw [← List.drop_drop, h, List.drop_left]

variable {levels : Nat} {total group : List Summary}

/-- The last column of a plan counts rows. -/
theorem count_planOf :
    (planOf levels total group).columns[(planOf levels total group).countPosition]?
      = some .rowCount :=
  List.getElem?_concat_length

/-- Keys stand behind the records, one column for each level. -/
theorem key_planOf {level : Nat} (h : level < levels) :
    (planOf levels total group).columns[level + 1]? = some (.key level) := by
  simp only [planOf, List.cons_append, List.append_assoc, List.getElem?_cons_succ]
  rw [List.getElem?_append_left (by simpa using h), List.getElem?_map, List.getElem?_range h]
  rfl

/-- The totals of a request read the columns behind the keys, -/
theorem reads_total : List.Forall₂ (Reads (planOf levels total group).columns) total
    (planned (Column.record :: (List.range levels).map Column.key).length total) := by
  have behind : (planOf levels total group).columns.drop
      (Column.record :: (List.range levels).map Column.key).length
        = total.flatMap columnsFor ++ (group.flatMap columnsFor ++ [.rowCount]) := by
    simp only [planOf, List.append_assoc]
    exact List.drop_left
  exact planned_reads behind

/-- and its summaries of groups those behind these. -/
theorem reads_group : List.Forall₂ (Reads (planOf levels total group).columns) group
    (planned (Column.record :: (List.range levels).map Column.key
      ++ total.flatMap columnsFor).length group) := by
  have behind : (planOf levels total group).columns.drop
      (Column.record :: (List.range levels).map Column.key ++ total.flatMap columnsFor).length
        = group.flatMap columnsFor ++ [.rowCount] := by
    simp only [planOf]
    rw [List.append_assoc _ _ [Column.rowCount], List.drop_left]
  exact planned_reads behind

end Projection

end DataGrid
