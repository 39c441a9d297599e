import DataGrid.Proofs.Planning.Layout
import DataGrid.Proofs.Rollup.Failing
import DataGrid.Proofs.Store.RowCounts

/-!
# Which flat rows are folded

Flat rows come from outside, so nothing is known of them. `Projection.regroup_accepts` says what
becomes of them: rows that are folded have a cell for every column, and rows that have one, with
integers or nulls in the columns that are added up, are folded. A cell that is said to be missing is
missing from a row as wide as it is said to be. Of the totals, the last one is always a count, so
that the number of all rows is the sum of the column of counts, kept within a word at every step.
-/

namespace DataGrid

open Value (IsCount)
open Tally (addCounts countOf valueIn tallied)
open Subtree (leafRows leafRowsOf)

/-- Whether the values of a column are added up, as sums or as counts. -/
def Column.isAdded : Column → Bool
  | .sum _ | .avgSum _ | .avgCount _ | .rowCount => true
  | .record | .key _ | .min _ | .max _ => false

/-- A row that can be folded: it has a cell for every column, and integers or nulls where values are
added up. -/
structure Row.Fills (plan : Projection) (row : Row) : Prop where
  /-- the cells -/
  wide : plan.width ≤ row.width
  /-- what is added up -/
  added : ∀ (n : Nat) (c : Column) (v : Value), plan.columns[n]? = some c → c.isAdded = true →
    row.get n = .ok v → IsCount v

/-- A sum of counts and the count at a position of a row, kept within a word. -/
def Row.addCount (position : Nat) (sum : Int64) (row : Row) : Except ReadError Int64 := do
  let v ← row.get position
  return addCounts sum (← countOf v)

/-- The sum of the counts at a position of rows. -/
def Row.sumCounts (position : Nat) (rows : List Row) : Except ReadError Int64 :=
  rows.foldlM (Row.addCount position) 0

namespace Row

/-- A cell is missing only where a row is too short. -/
theorem get_eq_error {row : Row} {n : Nat} {e : ReadError} (h : row.get n = .error e) :
    e = .missingField n row.width ∧ row.width ≤ n := by
  rw [get] at h
  split at h
  · cases h
  next none =>
    cases h
    exact ⟨rfl, List.getElem?_eq_none_iff.1 none⟩

theorem get_of_lt {row : Row} {n : Nat} (h : n < row.width) : ∃ v, row.get n = .ok v := by
  cases hget : row.get n with
  | ok v => exact ⟨v, rfl⟩
  | error e => exact absurd h (Nat.not_lt.2 (get_eq_error hget).2)

theorem lt_of_get {row : Row} {n : Nat} {v : Value} (h : row.get n = .ok v) : n < row.width := by
  by_contra short
  rw [get, List.getElem?_eq_none (Nat.not_lt.1 short)] at h
  cases h

/-- The tally of a column of counts is their sum. -/
theorem tally_counts (position : Nat) (rows : List Row) :
    (Measure.of .remoteCount (some (.position position))).tally Row.read rows
      = (sumCounts position rows).map .remoteCount := by
  have grow : ∀ sum : Int64,
      rows.foldlM (Tally.step Row.read (.of .remoteCount (some (.position position))))
          (.remoteCount sum)
        = (rows.foldlM (addCount position) sum).map .remoteCount := by
    induction rows with
    | nil => exact fun _ => rfl
    | cons row rest ih =>
      intro sum
      rw [List.foldlM_cons, List.foldlM_cons, Tally.step, addCount]
      simp only [Measure.of, Tally.readOptional, Row.read]
      cases row.get position with
      | error e => rfl
      | ok v =>
        simp only [bind, Except.bind, Tally.stepWith]
        cases countOf v with
        | error e => rfl
        | ok c => exact ih (addCounts sum c)
  exact grow 0

/-- The number of all rows is what the measure of counts gives. -/
theorem fold_counts (position : Nat) (rows : List Row) :
    (Measure.of .remoteCount (some (.position position))).fold Row.read rows
      = (sumCounts position rows).map .int := by
  rw [Measure.fold, tally_counts]
  cases sumCounts position rows <;> rfl

/-- If counts are added up, every row has one. -/
theorem lt_width_of_sumCounts {position : Nat} {rows : List Row} {n : Int64}
    (h : sumCounts position rows = .ok n) : ∀ row ∈ rows, position < row.width := by
  have grow : ∀ sum : Int64, rows.foldlM (addCount position) sum = .ok n →
      ∀ row ∈ rows, position < row.width := by
    clear h
    induction rows with
    | nil => exact fun _ _ _ h => nomatch h
    | cons row rest ih =>
      intro sum h
      obtain ⟨sum', hsum', h⟩ := Outcome.bind_eq_ok.1 h
      obtain ⟨v, hv, -⟩ := Outcome.bind_eq_ok.1 hsum'
      exact List.forall_mem_cons.2 ⟨lt_of_get hv, ih sum' h⟩
  exact grow 0 h

end Row

namespace Projection

variable {shape : Shape} {guardNulls : Bool} {levels : Nat} {total group : List Summary}
variable {plan : Projection} {rows : List Row}

/-! ### Rows that can be folded -/

/-- A row that fills a plan has a cell for each column. -/
theorem exists_get_of_fills {row : Row} (fills : row.Fills plan) {n : Nat} {c : Column}
    (hc : plan.columns[n]? = some c) : ∃ v, row.get n = .ok v :=
  Row.get_of_lt (Nat.lt_of_lt_of_le (List.getElem?_eq_some_iff.1 hc).1 fills.wide)

theorem isCount_of_fills {row : Row} (fills : row.Fills plan) {n : Nat} {c : Column}
    (hc : plan.columns[n]? = some c) (added : c.isAdded = true) :
    IsCount (valueIn Row.read (some (.position n)) row) := by
  obtain ⟨v, hv⟩ := exists_get_of_fills fills hc
  rw [valueIn, Tally.readOptional, Row.read, hv]
  exact fills.added n c v hc added hv

/-- The entries of a plan can be folded over rows that fill it. -/
theorem steady_of_answers {s : Summary} {a : PlannedSummary} (h : Answers plan s a) :
    Tally.Steady Row.read (·.Fills plan) a.measure := by
  have unread (row : Row) : ∃ v, Tally.readOptional Row.read row none = .ok v := ⟨.null, rfl⟩
  cases h with
  | sum hc =>
    exact ⟨fun row fills => exists_get_of_fills fills hc, fun row _ => unread row,
      fun _ row fills => isCount_of_fills fills hc rfl, (nomatch ·)⟩
  | min hc =>
    exact ⟨fun row fills => exists_get_of_fills fills hc, fun row _ => unread row,
      (nomatch ·), (nomatch ·)⟩
  | max hc =>
    exact ⟨fun row fills => exists_get_of_fills fills hc, fun row _ => unread row,
      (nomatch ·), (nomatch ·)⟩
  | avg sums counts | remoteAvg sums counts =>
    exact ⟨fun row fills => exists_get_of_fills fills sums,
      fun row fills => exists_get_of_fills fills counts,
      fun _ row fills => isCount_of_fills fills sums rfl,
      fun _ row fills => isCount_of_fills fills counts rfl⟩
  | count hc | remoteCount hc =>
    exact ⟨fun row fills => exists_get_of_fills fills hc, fun row _ => unread row,
      fun _ row fills => isCount_of_fills fills hc rfl, (nomatch ·)⟩

/-- Every entry of a plan computes a summary. -/
theorem exists_answered {ss : List Summary} {as : List PlannedSummary}
    (answers : List.Forall₂ (Answers plan) ss as) : ∀ a ∈ as, ∃ s, Answers plan s a :=
  ((List.forall₂_and_left _ _).1 (answers.flip.imp fun _ s h => ⟨⟨s, h⟩, h⟩)).1

/-- The tallies of a plan over rows that fill it are known. -/
theorem known_of_laidOut (laidOut : LaidOut levels total group plan) :
    Rollup.Known Row.read (·.Fills plan) (Tally.tallied Row.read) plan.rollup := by
  have tallies {ss : List Summary} {as : List PlannedSummary}
      (answers : List.Forall₂ (Answers plan) ss as) : ∀ m ∈ as.map PlannedSummary.measure,
        Rollup.Tallies Row.read (·.Fills plan) (Tally.tallied Row.read) m := by
    intro m hm
    obtain ⟨a, ha, rfl⟩ := List.mem_map.1 hm
    obtain ⟨s, hs⟩ := exists_answered answers a ha
    exact (steady_of_answers hs).tallies
  exact ⟨tallies laidOut.total, tallies laidOut.group⟩

/-! ### Errors -/

/-- The fields of a plan are positions of its rows. -/
theorem field_measure (a : PlannedSummary) {source : Source}
    (h : a.measure.field = some source ∨ a.measure.countField = some source) :
    ∃ n, source = .position n := by
  obtain ⟨kind, position⟩ := a
  cases kind <;> rcases h with h | h <;> cases h <;> exact ⟨_, rfl⟩

/-- The errors of flat rows that are not folded: a cell that is missing from a row, or a value that
cannot be added. -/
def Excused (rows : List Row) (e : ReadError) : Prop :=
  (∃ row ∈ rows, ∃ n, row.width ≤ n ∧ e = .missingField n row.width) ∨ Unfit e

/-- If rows cannot be grouped, one of them has no key. -/
theorem excused_of_treeOf {e : ReadError} (h : treeOf levels rows = .error e) :
    Excused rows e := by
  rw [treeOf] at h
  split at h
  next positive =>
    obtain ⟨row, hrow, level, -, he⟩ :=
      Grouping.byLevels_eq_error positive (Outcome.map_eq_error.1 h)
    obtain ⟨rfl, short⟩ := Row.get_eq_error he
    exact .inl ⟨row, hrow, _, short, rfl⟩
  next => cases h

/-- If the measures of a plan fail, it is for a cell that is missing or does not fit. -/
theorem excused_of_run {t : Subtree Row} {e : ReadError}
    (h : plan.rollup.run Row.read t = .error e) : Excused (leafRows t) e := by
  obtain ⟨row, hrow, m, hm, tally, failing⟩ := Rollup.run_eq_error h
  have planned : ∃ a : PlannedSummary, a.measure = m := by
    rcases List.mem_append.1 hm with hm | hm
    · exact (List.mem_map.1 hm).imp fun _ h => h.2
    · exact (List.mem_map.1 hm).imp fun _ h => h.2
  obtain ⟨a, rfl⟩ := planned
  rcases Tally.step_eq_error failing with ⟨source, hsource, he⟩ | unfit
  · obtain ⟨n, rfl⟩ := field_measure a hsource
    obtain ⟨rfl, short⟩ := Row.get_eq_error he
    exact .inl ⟨row, hrow, n, short, rfl⟩
  · exact .inr unfit

/-- The totals of a plan end in the sum of the counts of all rows. -/
theorem totals_of_run {t t' : Subtree Row} {totals : Option (List Value)}
    (h : (planOf levels total group).rollup.run Row.read t = .ok (t', totals)) :
    ∃ values n, totals = some (values ++ [.int n])
      ∧ Row.sumCounts (planOf levels total group).countPosition (leafRows t) = .ok n := by
  obtain ⟨-, gives⟩ := Rollup.run_eq_ok_iff.1 h
  obtain ⟨values, v, rfl, -, fold⟩ := totals_planOf gives
  rw [Row.fold_counts] at fold
  obtain ⟨n, hn, rfl⟩ := Outcome.map_eq_ok.1 fold
  exact ⟨values, n, rfl, hn⟩

/-! ### What becomes of rows -/

/-- What a resolver folds flat rows into. -/
def folded (r : Resolver) (rows : List Row) (levels : Nat) (total group : List Summary) :
    Except RequestError Regrouped :=
  ((regroup rows levels total group).run.run r).1

/-- What is folded does not depend on what the resolver remembers. -/
theorem folded_eq {r : Resolver} (serves : r.Serves shape guardNulls) :
    folded r rows levels total group = regrouped shape guardNulls rows levels total group :=
  (computes_regroup rows levels total group).run_eq serves

theorem planned?_of_made {r : Resolver} (serves : r.Serves shape guardNulls)
    (h : made r levels total group = .ok plan) :
    planned? shape guardNulls levels total group = .ok plan := by
  rw [made, (computes_make levels total group).run_eq serves] at h
  exact h

/-- Rows that are not folded have a cell missing, or one that cannot be added. -/
theorem regrouped_eq_error (hplan : planned? shape guardNulls levels total group = .ok plan)
    {e : RequestError} (h : regrouped shape guardNulls rows levels total group = .error e) :
    ∃ cause, e = .read cause ∧ Excused rows cause := by
  obtain ⟨-, -, rfl⟩ := planned?_eq_ok.1 hplan
  rw [regrouped, hplan] at h
  rcases Outcome.bind_eq_error.1 h with h | ⟨_, hmade, h⟩
  · cases h
  cases hmade
  rcases Outcome.bind_eq_error.1 h with h | ⟨t, ht, h⟩
  · obtain ⟨cause, ht, rfl⟩ := Outcome.mapError_eq_error.1 h
    exact ⟨cause, rfl, excused_of_treeOf ht⟩
  rw [Outcome.mapError_eq_ok] at ht
  rcases Outcome.bind_eq_error.1 h with h | ⟨⟨t', totals⟩, run, h⟩
  · obtain ⟨cause, run, rfl⟩ := Outcome.mapError_eq_error.1 h
    refine ⟨cause, rfl, (excused_of_run run).imp_left fun h => ?_⟩
    obtain ⟨row, hrow, missing⟩ := h
    exact ⟨row, (leafRows_treeOf_perm ht).mem_iff.1 hrow, missing⟩
  -- the last of the totals is a count, so that it is taken
  rw [Outcome.mapError_eq_ok] at run
  obtain ⟨values, n, rfl, -⟩ := totals_of_run run
  rcases Outcome.bind_eq_error.1 h with h | ⟨_, -, h⟩
  · rw [Option.getD_some, takeCount_concat] at h
    cases h
  · cases h

/-- What becomes of flat rows of any width that hold any values. -/
structure Accepts (plan : Projection) (rows : List Row) (outcome : Except RequestError Regrouped) :
    Prop where
  /-- rows that are folded have a cell for every column -/
  wide : ∀ result, outcome = .ok result → ∀ row ∈ rows, plan.width ≤ row.width
  /-- rows that have one, and integers or nulls where values are added up, are folded -/
  fills : (∀ row ∈ rows, row.Fills plan) → ∃ result, outcome = .ok result
  /-- a cell that is missing is missing from one of the rows, whose width is told -/
  missing : ∀ n width, outcome = .error (.read (.missingField n width)) →
    ∃ row ∈ rows, row.width = width ∧ width ≤ n
  /-- the last of the totals is always a count -/
  last : ∀ t t' totals, plan.rollup.run Row.read t = .ok (t', totals) →
    ∃ values n, totals = some (values ++ [.int n])
  /-- so that it never fails to be one -/
  neverInt : ∀ found, outcome ≠ .error (.read (.typeMismatch "int" found))
  /-- the number of all rows is the sum of the counts of the rows in the order of the leaves -/
  counted : ∀ result, outcome = .ok result → ∃ leaves, leaves.Perm rows
    ∧ (match result.groups with | some gs => leaves = leafRowsOf gs | none => leaves = rows)
    ∧ Row.sumCounts plan.countPosition leaves = .ok result.totalCount

theorem laidOut_of_planned (hplan : planned? shape guardNulls levels total group = .ok plan) :
    LaidOut levels total group plan := by
  obtain ⟨resolveTotal, resolveGroup, rfl⟩ := planned?_eq_ok.1 hplan
  refine laidOut_planOf (fun s hs => ?_) fun s hs => ?_
  · obtain ⟨a?, ha⟩ := resolveTotal s hs
    exact takes_columnsFor ha
  · obtain ⟨a?, ha⟩ := resolveGroup s hs
    exact takes_columnsFor ha

/-- A plan has a column for the key of every level. -/
theorem levels_lt_width (laidOut : LaidOut levels total group plan) : levels + 1 ≤ plan.width := by
  obtain ⟨front, back, -, -, columns⟩ := laidOut.columns
  rw [width, columns]
  simp only [List.length_append, List.length_map, List.length_range, List.length_singleton]
  omega

/-- Rows that fill a plan have a key at every level. -/
theorem exists_treeOf_of_wide (h : ∀ row ∈ rows, levels + 1 ≤ row.width) :
    ∃ t, treeOf levels rows = .ok t := by
  cases ht : treeOf levels rows with
  | ok t => exact ⟨t, rfl⟩
  | error e =>
    rw [treeOf] at ht
    split at ht
    next positive =>
      obtain ⟨row, hrow, level, below, he⟩ :=
        Grouping.byLevels_eq_error positive (Outcome.map_eq_error.1 ht)
      have short := (Row.get_eq_error he).2
      have wide := h row hrow
      omega
    next => cases ht

/-- Rows that fill a plan are folded, into a tree whose summaries are those of the rows of its
groups. -/
theorem regrouped_of_fills (hplan : planned? shape guardNulls levels total group = .ok plan)
    (fills : ∀ row ∈ rows, row.Fills plan) :
    ∃ t values n, treeOf levels rows = .ok t
      ∧ plan.rollup.total.map (fun m => (tallied Row.read m (leafRows t)).finish)
        = values ++ [.int n]
      ∧ regrouped shape guardNulls rows levels total group = .ok
        ⟨groupsOf? ((t.dress (Rollup.summarize (tallied Row.read) plan.rollup)).resum
            (Option.map (SumZeros.filledAll shape guardNulls group))),
          (some (SumZeros.filledAll shape guardNulls total values)).filter (!·.isEmpty), n⟩ := by
  have laidOut := laidOut_of_planned hplan
  have held : ∀ row ∈ rows, levels + 1 ≤ row.width := fun row hrow =>
    Nat.le_trans (levels_lt_width laidOut) (fills row hrow).wide
  obtain ⟨t, ht⟩ := exists_treeOf_of_wide held
  have leaves : ∀ row ∈ leafRows t, row.Fills plan := fun row hrow =>
    fills row ((leafRows_treeOf_perm ht).mem_iff.1 hrow)
  have run := Rollup.run_eq (known_of_laidOut laidOut) leaves
  obtain ⟨-, -, rfl⟩ := planned?_eq_ok.1 hplan
  obtain ⟨values, n, same, -⟩ := totals_of_run run
  rw [same] at run
  split at same
  next => cases same
  next => exact ⟨t, values, n, ht, Option.some.inj same, regrouped_of_run hplan ht run⟩

/-- The leaves of a result are the leaves of the tree, or the rows themselves if there is none. -/
theorem leaves_of_run {t t' : Subtree Row} {totals : Option (List Value)}
    (ht : treeOf levels rows = .ok t) (run : plan.rollup.run Row.read t = .ok (t', totals))
    (f : Option (List Value) → Option (List Value)) :
    match groupsOf? (t'.resum f) with
    | some gs => leafRows t = leafRowsOf gs
    | none => leafRows t = rows := by
  have same := Rollup.leafRows_run run
  rw [treeOf] at ht
  split at ht
  next =>
    obtain ⟨gs, -, rfl⟩ := Outcome.map_eq_ok.1 ht
    obtain ⟨gs', rfl, -⟩ := Subtree.groups_of_bare (Rollup.bare_run run)
    exact same.symm.trans (Subtree.leafRowsOf_resumAll f gs').symm
  next =>
    cases ht
    cases (Rollup.run_eq_ok_iff.1 run).1
    rfl

/-- The number of all rows that are folded is the sum of their counts, in the order of the
leaves. -/
theorem counted_of_regrouped (hplan : planned? shape guardNulls levels total group = .ok plan)
    {result : Regrouped} (h : regrouped shape guardNulls rows levels total group = .ok result) :
    ∃ leaves : List Row, leaves.Perm rows
      ∧ (match result.groups with | some gs => leaves = leafRowsOf gs | none => leaves = rows)
      ∧ Row.sumCounts plan.countPosition leaves = .ok result.totalCount := by
  obtain ⟨-, -, t, t', totals, n, values, ht, run, hcount, rfl⟩ := regrouped_eq_ok h
  obtain ⟨-, -, rfl⟩ := planned?_eq_ok.1 hplan
  obtain ⟨values', m, rfl, sum⟩ := totals_of_run run
  obtain ⟨same, -⟩ := takeCount_concat_eq_ok hcount
  cases same
  exact ⟨leafRows t, leafRows_treeOf_perm ht, leaves_of_run ht run _, sum⟩

/-- In rows that are folded, every row has a cell for every column. -/
theorem wide_of_regrouped (hplan : planned? shape guardNulls levels total group = .ok plan)
    {result : Regrouped} (h : regrouped shape guardNulls rows levels total group = .ok result) :
    ∀ row ∈ rows, plan.width ≤ row.width := by
  intro row hrow
  obtain ⟨leaves, perm, -, sum⟩ := counted_of_regrouped hplan h
  have counted := Row.lt_width_of_sumCounts sum row (perm.mem_iff.2 hrow)
  rw [← (laidOut_of_planned hplan).count]
  exact counted

/-- What flat rows must be to be folded for a request, and what becomes of all others. -/
theorem regroup_accepts {r : Resolver} (serves : r.Serves shape guardNulls)
    (hplan : made r levels total group = .ok plan) (rows : List Row) :
    Accepts plan rows (folded r rows levels total group) := by
  have hplan := planned?_of_made serves hplan
  rw [folded_eq serves]
  refine ⟨fun result h => wide_of_regrouped hplan h, fun fills => ?_, fun n width h => ?_,
    fun t t' totals run => ?_, fun found h => ?_, fun result h => counted_of_regrouped hplan h⟩
  · obtain ⟨t, values, n, -, -, h⟩ := regrouped_of_fills hplan fills
    exact ⟨_, h⟩
  · obtain ⟨cause, same, excused⟩ := regrouped_eq_error hplan h
    cases same
    rcases excused with ⟨row, hrow, m, short, same⟩ | unfit
    · cases same
      exact ⟨row, hrow, rfl, short⟩
    · exact absurd rfl (unfit.ne_missingField n width)
  · obtain ⟨-, -, rfl⟩ := planned?_eq_ok.1 hplan
    obtain ⟨values, n, rfl, -⟩ := totals_of_run run
    exact ⟨values, n, rfl⟩
  · obtain ⟨cause, same, excused⟩ := regrouped_eq_error hplan h
    cases same
    rcases excused with ⟨_, _, _, _, same⟩ | unfit
    · cases same
    · exact absurd rfl (unfit.ne_int found)

/-- Visits by town with the average of their sizes: rows with sums and counts, or nulls in their
place, are folded, and a row without a count is not. -/
theorem regroup_accepts_short_row :
    let shape := Shape.mk "Visit" [.plain "town" .string, .plain "size" .int32]
    let r := Resolver.fresh shape false
    let total : List Summary := [⟨some "size", .avg⟩]
    let plan : Projection := {
      groupCount := 1
      columns := [.record, .key 0, .avgSum "size", .avgCount "size", .rowCount]
      total := [⟨.remoteAvg, 2⟩, ⟨.remoteCount, 4⟩]
      group := []
      countPosition := 4 }
    let rows : List Row := [⟨[.null, .string "Ulm", .int 8, .int 2, .int 3]⟩,
      ⟨[.null, .string "Bonn", .null, .null, .int 1, .string "more"]⟩]
    let short : Row := ⟨[.null, .string "Ulm", .int 5]⟩
    r.Serves shape false ∧ made r 1 total [] = .ok plan
      ∧ Accepts plan rows (folded r rows 1 total []) ∧ (∀ row ∈ rows, row.Fills plan)
      ∧ (∃ result, folded r rows 1 total [] = .ok result ∧ result.totalCount = 4)
      ∧ Accepts plan (short :: rows) (folded r (short :: rows) 1 total [])
      ∧ folded r (short :: rows) 1 total [] = .error (.read (.missingField 3 3)) := by
  intro shape r total plan rows short
  have made : made r 1 total [] = .ok plan := rfl
  have accepts := regroup_accepts Resolver.serves_fresh made
  have fills : ∀ row ∈ rows, row.Fills plan := by
    intro row hrow
    simp only [rows, List.mem_cons, List.not_mem_nil, or_false] at hrow
    rcases hrow with rfl | rfl <;> refine ⟨by decide, fun n c v hc added hv => ?_⟩ <;>
      rcases n with _ | _ | _ | _ | _ | n <;> cases hc <;> cases hv <;> first
        | exact .inl rfl
        | exact .inr ⟨_, rfl⟩
        | cases added
  obtain ⟨result, hresult⟩ := (accepts rows).fills fills
  have counted : (folded r rows 1 total []).toOption.map Regrouped.totalCount = some 4 := by
    decide +kernel
  rw [hresult] at counted
  exact ⟨Resolver.serves_fresh, made, accepts rows, fills,
    ⟨result, hresult, Option.some.inj counted⟩, accepts (short :: rows), rfl⟩

end Projection

end DataGrid
