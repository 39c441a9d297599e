import DataGrid.Proofs.Merging
import DataGrid.Proofs.Regrouping.Reading

/-!
# Entries of a plan over flat rows

* `PlannedSummary.valueOver` is the value that an entry of a plan computes over flat rows. The order
  of the rows does not matter to it (`Projection.Answers.valueOver_perm`), if counts are not
  negative and extremes are exact.
* `SummaryKind.Joins` says how a value comes of those of parts. The value over all rows does so, as
  long as sums and counts stay within a word, and another entry for the same summary has such a
  value exactly if its values and those of the other agree (`Projection.Answers.joins_iff`).
-/

namespace DataGrid

open Tally (total sumOver bestOf Best tallied)
open Projection (Answers)

/-! ### What is asked of rows and summaries -/

/-- Whether the values of a column are counts. -/
def Column.isCounted : Column → Bool
  | .avgCount _ | .rowCount => true
  | _ => false

/-- Whether the values of a column are extremes. -/
def Column.isExtreme : Column → Bool
  | .min _ | .max _ => true
  | _ => false

/-- Whether the sum of no values of a type is an integer. -/
def FieldType.sumsWords : FieldType → Bool
  | .int32 | .int64 | .dynamic => true
  | _ => false

/-- A sum is one of integers, as far as the type of its selector tells. -/
def Summary.SumsWords (shape : Shape) (guardNulls : Bool) (s : Summary) : Prop :=
  s.kind = .sum → ∀ x a, s.selector = some x → Accessor.ofPath shape guardNulls x = .ok a →
    a.type.sumsWords = true

namespace Row

/-- The values at a position of rows. -/
def cells (n : Nat) (rows : List Row) : List Value :=
  rows.map fun row => (row.get n).toOption.getD .null

/-- The sum of the integers at a position of rows. -/
def sumAt (n : Nat) (rows : List Row) : Int := total (cells n rows)

/-- A row whose values can be merged with those of others. -/
structure Merges (plan : Projection) (row : Row) : Prop where
  /-- integers or nulls are added up -/
  added : ∀ (n : Nat) (c : Column) (v : Value), plan.columns[n]? = some c → c.isAdded = true →
    row.get n = .ok v → v.IsCount
  /-- counts are not negative -/
  counted : ∀ (n : Nat) (c : Column) (i : Int64), plan.columns[n]? = some c →
    c.isCounted = true → row.get n = .ok (.int i) → 0 ≤ i.toInt
  /-- extremes are no doubles, lists or records -/
  exact : ∀ (n : Nat) (c : Column) (v : Value), plan.columns[n]? = some c →
    c.isExtreme = true → row.get n = .ok v → v.isExact = true

end Row

namespace PlannedSummary

/-- The value of an entry of a plan over rows. -/
def valueOver (a : PlannedSummary) (rows : List Row) : Value :=
  (tallied Row.read a.measure rows).finish

/-- If an entry adds up integers, their sum over rows stays within a word. -/
def Fits (a : PlannedSummary) (rows : List Row) : Prop :=
  a.kind = .sum ∨ a.kind = .remoteCount → Integer.Fits (Row.sumAt a.position rows)

instance (a : PlannedSummary) (rows : List Row) : Decidable (a.Fits rows) :=
  inferInstanceAs (Decidable (_ → Integer.Fits _))

end PlannedSummary

/-! ### How values come of values -/

/-- A value comes of those of parts as a kind of summary says: sums and counts add up, and an
extreme is that of the extremes. Averages do not come of averages. -/
def SummaryKind.Joins (kind : SummaryKind) (v : Value) (parts : List Value) : Prop :=
  match kind with
  | .sum | .count | .remoteCount =>
    ∃ (i : Int64) (is : List Int64), v = .int i ∧ parts = is.map Value.int
      ∧ i.toInt = (is.map Int64.toInt).sum
  | .min => Best .lt parts v
  | .max => Best .gt parts v
  | .avg | .remoteAvg => True

/-- Values agree with others for a kind of summary: they have the same sum, or the same extreme. -/
def SummaryKind.Agrees (kind : SummaryKind) (us vs : List Value) : Prop :=
  match kind with
  | .sum | .count | .remoteCount => total us = total vs
  | .min => bestOf .lt us = bestOf .lt vs
  | .max => bestOf .gt us = bestOf .gt vs
  | .avg | .remoteAvg => True

/-- What is read from one column agrees with itself. -/
theorem SummaryKind.agrees_refl (kind : SummaryKind) (vs : List Value) : kind.Agrees vs vs := by
  cases kind <;> first | exact rfl | trivial

/-! ### Values at a position -/

namespace Row

variable {n : Nat} {rows rows' : List Row} {plan : Projection} {c : Column}

/-- A cell holds what its row has there, or the null of a row that is too short. -/
theorem get_of_mem_cells {v : Value} (h : v ∈ cells n rows) :
    v = .null ∨ ∃ row ∈ rows, row.get n = .ok v := by
  obtain ⟨row, hrow, rfl⟩ := List.mem_map.1 h
  cases hget : row.get n with
  | ok v => exact .inr ⟨row, hrow, hget⟩
  | error e => exact .inl rfl

theorem cells_perm (perm : rows'.Perm rows) : (cells n rows').Perm (cells n rows) := perm.map _

theorem sumAt_perm (perm : rows'.Perm rows) : sumAt n rows' = sumAt n rows :=
  Tally.total_perm (cells_perm perm)

theorem cells_flatten (parts : List (List Row)) :
    cells n parts.flatten = (parts.map (cells n)).flatten := by
  rw [cells, List.map_flatten]
  rfl

/-- The sum over parts is that of their sums. -/
theorem sumAt_flatten (parts : List (List Row)) :
    sumAt n parts.flatten = (parts.map (sumAt n)).sum := by
  induction parts with
  | nil => rfl
  | cons p parts ih =>
    rw [List.map_cons, List.sum_cons, ← ih, List.flatten_cons, sumAt, cells, List.map_append,
      Tally.total_append]
    rfl

variable (merges : ∀ row ∈ rows, row.Merges plan) (hc : plan.columns[n]? = some c)
include merges hc

/-- No count of a row is negative. -/
theorem nonneg_ints_cells (counted : c.isCounted = true) :
    ∀ i ∈ Value.ints (cells n rows), 0 ≤ i.toInt := by
  intro i hi
  obtain ⟨v, hv, same⟩ := List.mem_filterMap.1 hi
  cases v <;> cases same
  rcases get_of_mem_cells hv with null | ⟨row, hrow, hget⟩
  · cases null
  · exact (merges row hrow).counted n c i hc counted hget

theorem exact_cells (extreme : c.isExtreme = true) : ∀ v ∈ cells n rows, v.isExact = true := by
  intro v hv
  rcases get_of_mem_cells hv with rfl | ⟨row, hrow, hget⟩
  · rfl
  · exact (merges row hrow).exact n c v hc extreme hget

/-- Counts that are not negative add up, as far as a word goes. -/
theorem foldl_counts (counted : c.isCounted = true) :
    (Value.ints (cells n rows)).foldl Tally.addCounts 0 = Integer.saturate (sumAt n rows) := by
  rw [Tally.foldl_addCounts_of_nonneg (nonneg_ints_cells merges hc counted), Int64.toInt_zero,
    Int.zero_add]
  rfl

end Row

theorem RunningSum.ofInts_perm {is js : List Int64} (perm : is.Perm js) :
    ofInts is = ofInts js := by
  have sum := (perm.map Int64.toInt).sum_eq
  cases is with
  | nil => rw [perm.nil_eq]
  | cons i is =>
    cases js with
    | nil => cases perm.eq_nil
    | cons j js => exact congrArg RunningSum.int sum

/-! ### Entries of a plan -/

section Entries

variable {shape : Shape} {guardNulls : Bool} {plan : Projection} {s : Summary}
variable {a b : PlannedSummary} {rows rows' : List Row}

/-- An entry of counts adds them up as far as a word goes. -/
theorem PlannedSummary.valueOver_count {n : Nat} {c : Column}
    (merges : ∀ row ∈ rows, row.Merges plan) (hc : plan.columns[n]? = some c)
    (counted : c.isCounted = true) :
    valueOver ⟨.remoteCount, n⟩ rows = .int (Integer.saturate (Row.sumAt n rows)) :=
  congrArg Value.int (Row.foldl_counts merges hc counted)

theorem PlannedSummary.valueOver_count_of_fits {n : Nat} {c : Column}
    (merges : ∀ row ∈ rows, row.Merges plan) (hc : plan.columns[n]? = some c)
    (counted : c.isCounted = true) (fits : Integer.Fits (Row.sumAt n rows)) :
    valueOver ⟨.remoteCount, n⟩ rows = .int (Int64.ofInt (Row.sumAt n rows)) := by
  rw [valueOver_count merges hc counted, Integer.saturate_of_fits fits]

/-- An entry of averages shares the sum among the counts. -/
theorem PlannedSummary.valueOver_avg {n : Nat} {c : Column}
    (merges : ∀ row ∈ rows, row.Merges plan) (hc : plan.columns[n + 1]? = some c)
    (counted : c.isCounted = true) :
    valueOver ⟨.remoteAvg, n⟩ rows = (RunningSum.ofInts (Value.ints (Row.cells n rows))).divide
      (Integer.saturate (Row.sumAt (n + 1) rows)).toInt.toNat := by
  rw [← Row.foldl_counts merges hc counted]
  rfl

/-- The order of rows does not matter to an entry. -/
theorem Projection.Answers.valueOver_perm (answers : Answers plan s a)
    (merges : ∀ row ∈ rows, row.Merges plan) (perm : rows'.Perm rows) :
    a.valueOver rows' = a.valueOver rows := by
  have merges' : ∀ row ∈ rows', row.Merges plan := fun row h => merges row (perm.mem_iff.1 h)
  cases answers with
  | sum hc =>
    refine (Tally.finish_after_sum _ _).trans (Eq.trans ?_ (Tally.finish_after_sum _ _).symm)
    exact Tally.sumOver_perm (Row.cells_perm perm)
  | min hc =>
    exact Tally.bestOf_perm (.inl rfl) (Row.exact_cells merges hc rfl) (Row.cells_perm perm)
  | max hc =>
    exact Tally.bestOf_perm (.inr rfl) (Row.exact_cells merges hc rfl) (Row.cells_perm perm)
  | @avg x n sums counts | @remoteAvg x n sums counts =>
    have ints : (Value.ints (Row.cells n rows')).Perm (Value.ints (Row.cells n rows)) :=
      (Row.cells_perm perm).filterMap _
    rw [PlannedSummary.valueOver_avg merges' counts rfl,
      PlannedSummary.valueOver_avg merges counts rfl, Row.sumAt_perm perm,
      RunningSum.ofInts_perm ints]
  | count hc | remoteCount hc =>
    rw [PlannedSummary.valueOver_count merges' hc rfl, PlannedSummary.valueOver_count merges hc rfl,
      Row.sumAt_perm perm]

/-- The value of a summary over rows, with a zero in place of a null sum. -/
def PlannedSummary.filledOver (shape : Shape) (guardNulls : Bool) (s : Summary) (a : PlannedSummary)
    (rows : List Row) : Value :=
  SumZeros.filled shape guardNulls s (a.valueOver rows)

/-- With a zero for no integers, a sum is an integer. -/
theorem SumZeros.filled_sumOver {x : String} {values : List Value}
    (resolves : ∃ a?, Summary.resolved shape guardNulls ⟨some x, .sum⟩ = .ok a?)
    (words : Summary.SumsWords shape guardNulls ⟨some x, .sum⟩)
    (fits : Integer.Fits (total values)) :
    filled shape guardNulls ⟨some x, .sum⟩ (sumOver values)
      = .int (Int64.ofInt (total values)) := by
  rw [sumOver]
  split
  next none =>
    obtain ⟨a?, hs⟩ := resolves
    rcases Summary.resolved_eq_ok hs with ⟨unread, -⟩ | ⟨-, x', a, same, ha, -⟩
    · cases unread
    · cases same
      have integer := words rfl x a rfl ha
      have zero : TypedSum.sumOfNone a.type = .int 0 := by
        cases htype : a.type <;> rw [htype] at integer <;> first
          | rfl
          | cases integer
      simp only [filled, Value.isNull, ha, zero, total, List.isEmpty_iff.1 none, List.map_nil,
        List.sum_nil]
      rfl
  next some =>
    rw [Sum.ofInt, Integer.narrow?, if_pos fits]
    rfl

/-- A number comes of others, as values, exactly if it is their sum. -/
theorem SummaryKind.joins_ints_iff {α : Type} {f : α → Int} {parts : List α} {n : Int}
    (whole : Integer.Fits n) (each : ∀ p ∈ parts, Integer.Fits (f p)) :
    (∃ (i : Int64) (is : List Int64), Value.int (Int64.ofInt n) = .int i
      ∧ parts.map (fun p => Value.int (Int64.ofInt (f p))) = is.map Value.int
      ∧ i.toInt = (is.map Int64.toInt).sum) ↔ n = (parts.map f).sum := by
  have told : (parts.map fun p => Int64.ofInt (f p)).map Int64.toInt = parts.map f := by
    rw [List.map_map]
    exact List.map_congr_left fun p hp => Integer.toInt_ofInt_of_fits (each p hp)
  have values : parts.map (fun p => Value.int (Int64.ofInt (f p)))
      = (parts.map fun p => Int64.ofInt (f p)).map Value.int := by
    rw [List.map_map]
    rfl
  constructor
  · rintro ⟨i, is, hi, his, sum⟩
    cases hi
    rw [values] at his
    rw [← List.map_injective_iff.2 (fun _ _ => Value.int.inj) his, told,
      Integer.toInt_ofInt_of_fits whole] at sum
    exact sum
  · intro sum
    exact ⟨_, _, rfl, values, by rw [Integer.toInt_ofInt_of_fits whole, told, sum]⟩

/-- A value is the extreme of those of parts exactly if it is that of all rows. -/
theorem Row.best_iff {n : Nat} {c : Column} {parts : List (List Row)} {v : Value}
    (perm : parts.flatten.Perm rows) (merges : ∀ row ∈ rows, row.Merges plan)
    (hc : plan.columns[n]? = some c) (extreme : c.isExtreme = true) {wanted : Ordering}
    (strict : Tally.Strict wanted) :
    Best wanted (parts.map fun p => bestOf wanted (Row.cells n p)) v
      ↔ v = bestOf wanted (Row.cells n rows) := by
  have cells : (parts.map (Row.cells n)).flatten.Perm (Row.cells n rows) := by
    rw [← Row.cells_flatten]
    exact Row.cells_perm perm
  have best := Tally.best_parts_iff strict cells (Row.exact_cells merges hc extreme) (v := v)
  rwa [List.map_map] at best

/-- The value of one entry over rows comes of those of another entry over parts of them, if both are
for one summary and what they read agrees; and only then. -/
theorem Projection.Answers.joins_iff (ha : Answers plan s a) (hb : Answers plan s b)
    (resolves : ∃ a?, s.resolved shape guardNulls = .ok a?) (words : s.SumsWords shape guardNulls)
    {parts : List (List Row)} (perm : parts.flatten.Perm rows)
    (merges : ∀ row ∈ rows, row.Merges plan) (whole : a.Fits rows)
    (each : ∀ p ∈ parts, b.Fits p) :
    s.kind.Joins (a.filledOver shape guardNulls s rows)
        (parts.map (b.filledOver shape guardNulls s))
      ↔ s.kind.Agrees (Row.cells a.position rows) (Row.cells b.position rows) := by
  have mergesEach : ∀ p ∈ parts, ∀ row ∈ p, row.Merges plan := fun p hp row hrow =>
    merges row (perm.mem_iff.1 (List.mem_flatten.2 ⟨p, hp, hrow⟩))
  have sums (n : Nat) : (parts.map (Row.sumAt n)).sum = Row.sumAt n rows := by
    rw [← Row.sumAt_flatten, Row.sumAt_perm perm]
  cases ha with
  | @sum x m _ =>
    cases hb with
    | @sum _ n _ =>
      have value : ∀ position rows, Integer.Fits (Row.sumAt position rows) →
          PlannedSummary.filledOver shape guardNulls ⟨some x, .sum⟩ ⟨.sum, position⟩ rows
            = .int (Int64.ofInt (Row.sumAt position rows)) := fun position rows fits =>
        (congrArg _ (Tally.finish_after_sum _ _)).trans
          (SumZeros.filled_sumOver resolves words fits)
      rw [value m rows (whole (.inl rfl)),
        List.map_congr_left fun p hp => value n p (each p hp (.inl rfl))]
      refine (SummaryKind.joins_ints_iff (whole (.inl rfl))
        fun p hp => each p hp (.inl rfl)).trans ?_
      rw [sums]
      exact Iff.rfl
  | count hc | remoteCount hc =>
    cases hb
    have value := PlannedSummary.valueOver_count_of_fits merges hc rfl (whole (.inr rfl))
    have values := List.map_congr_left fun p hp =>
      PlannedSummary.valueOver_count_of_fits (mergesEach p hp) hc rfl (each p hp (.inr rfl))
    have joins := SummaryKind.joins_ints_iff (whole (.inr rfl)) fun p hp => each p hp (.inr rfl)
    rw [← value, ← values, sums] at joins
    exact joins
  | min _ =>
    cases hb with
    | min hc => exact Row.best_iff perm merges hc rfl (.inl rfl)
  | max _ =>
    cases hb with
    | max hc => exact Row.best_iff perm merges hc rfl (.inr rfl)
  | avg _ _ | remoteAvg _ _ => exact Iff.rfl

end Entries

end DataGrid
