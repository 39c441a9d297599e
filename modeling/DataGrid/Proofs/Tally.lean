import DataGrid.Proofs.Rollup
import Mathlib.Algebra.Order.Ring.Int
import Mathlib.Data.List.Induction

/-!
# Tallies of whole lists

If the fields of a measure can be read from all rows, and those that are summed hold integers or
nulls, its tally is a function of the values in them: `Tally.after`. A measure is `Steady` then, and
its tallies are known (`Steady.tallies`).
-/

namespace DataGrid

/-- The integers among values. -/
def Value.ints (vs : List Value) : List Int64 := vs.filterMap Value.asInt?

/-- An integer or a null. -/
def Value.IsCount (v : Value) : Prop := v = .null ∨ ∃ i, v = .int i

/-- The running sum of integers. -/
def RunningSum.ofInts : List Int64 → RunningSum
  | [] => .empty
  | is => .int (is.map Int64.toInt).sum

/-- Whether a kind adds up the values that it reads. -/
def SummaryKind.addsUp : SummaryKind → Bool
  | sum | avg | remoteCount | remoteAvg => true
  | count | min | max => false

namespace Value

theorem ints_concat_int (vs : List Value) (i : Int64) : ints (vs ++ [.int i]) = ints vs ++ [i] := by
  simp [ints, asInt?]

theorem ints_concat_null (vs : List Value) : ints (vs ++ [.null]) = ints vs := by
  simp [ints, asInt?]

end Value

open Value (ints IsCount ints_concat_int ints_concat_null)

/-- The step: an exact sum takes one more integer. -/
theorem RunningSum.add_ofInts (is : List Int64) (i : Int64) :
    (ofInts is).add (.int i) = .ok (ofInts (is ++ [i])) := by
  cases is with
  | nil => simp [ofInts, add]
  | cons j is => simp [ofInts, add, Int.add_assoc]

theorem Integer.saturate_of_fits {n : Int} (h : Fits n) : saturate n = Int64.ofInt n := by
  rw [saturate, Int.min_eq_left h.2, Int.max_eq_right h.1]

/-- What saturates ends at the nearest integer of a word. -/
theorem Integer.toInt_saturate (n : Int) : (saturate n).toInt = max least (min n greatest) :=
  toInt_ofInt_of_fits
    ⟨Int.le_max_left _ _, Int.max_le.2 ⟨by decide, Int.min_le_right _ _⟩⟩

namespace Tally

/-- The tally of a kind after the values of its field and of its field of counts. -/
def after (kind : SummaryKind) (values counts : List Value) : Tally :=
  match kind with
  | .sum => sum (.ofInts (ints values)) !(ints values).isEmpty
  | .count => count values.length
  | .avg => avg (.ofInts (ints values)) (ints values).length
  | .min => min (values.foldl (keepBetter .lt) none)
  | .max => max (values.foldl (keepBetter .gt) none)
  | .remoteCount => remoteCount ((ints values).foldl addCounts 0)
  | .remoteAvg => remoteAvg (.ofInts (ints values)) ((ints counts).foldl addCounts 0)

theorem after_nil (kind : SummaryKind) : after kind [] [] = start kind := by cases kind <;> rfl

/-- A sum of integers passes over nulls. -/
theorem addValue_ofInts (values : List Value) {v : Value} (hv : IsCount v) :
    addValue (.ofInts (ints values)) v = .ok (.ofInts (ints (values ++ [v]))) := by
  rcases hv with rfl | ⟨i, rfl⟩
  · rw [ints_concat_null]
    rfl
  · rw [ints_concat_int]
    exact RunningSum.add_ofInts _ i

theorem addCounts_zero (n : Int64) : addCounts n 0 = n := by
  rw [addCounts, Int64.toInt_zero, Int.add_zero, Integer.saturate_of_fits (Integer.fits_toInt n),
    Int64.ofInt_toInt]

/-- The count that a value gives joins those before. -/
theorem countOf_concat (counts : List Value) {v : Value} (hv : IsCount v) :
    ∃ c, countOf v = .ok c
      ∧ addCounts ((ints counts).foldl addCounts 0) c
        = (ints (counts ++ [v])).foldl addCounts 0 := by
  rcases hv with rfl | ⟨i, rfl⟩
  · refine ⟨0, rfl, ?_⟩
    rw [ints_concat_null, addCounts_zero]
  · refine ⟨i, rfl, ?_⟩
    rw [ints_concat_int, List.foldl_append]
    rfl

/-- A row more is a value more. -/
theorem stepWith_after {kind : SummaryKind} (values counts : List Value) {v c : Value}
    (hv : kind.addsUp = true → IsCount v) (hc : kind = .remoteAvg → IsCount c) :
    stepWith (after kind values counts) v (.ok c)
      = .ok (after kind (values ++ [v]) (counts ++ [c])) := by
  cases kind with
  | count => simp [after, stepWith]
  | sum | avg =>
    simp only [after, stepWith, addValue_ofInts values (hv rfl), Except.map]
    rcases hv rfl with rfl | ⟨i, rfl⟩
    · simp [ints_concat_null, Value.isNull]
    · simp [ints_concat_int, Value.isNull]
  | min => simp [after, stepWith]
  | max => simp [after, stepWith]
  | remoteCount =>
    obtain ⟨n, hn, h⟩ := countOf_concat values (hv rfl)
    simp only [after, stepWith, hn, ← h]
    rfl
  | remoteAvg =>
    obtain ⟨n, hn, h⟩ := countOf_concat counts (hc rfl)
    simp only [after, stepWith, addValue_ofInts values (hv rfl), hn, ← h, bind, Except.bind]
    rfl

section Rows

variable {α : Type} (read : Source → α → Except ReadError Value)

/-- The value of a field, a null if it cannot be read. -/
def valueIn (field : Option Source) (row : α) : Value :=
  (readOptional read row field).toOption.getD .null

/-- The tally of a measure over rows. -/
def tallied (m : Measure) (rows : List α) : Tally :=
  after m.kind (rows.map (valueIn read m.field)) (rows.map (valueIn read m.countField))

/-- A measure can be folded over all rows with a property. -/
structure Steady (P : α → Prop) (m : Measure) : Prop where
  /-- its field can be read -/
  field : ∀ row, P row → ∃ v, readOptional read row m.field = .ok v
  /-- its field of counts can be read -/
  countField : ∀ row, P row → ∃ v, readOptional read row m.countField = .ok v
  /-- what is summed are integers and nulls -/
  values : m.kind.addsUp = true → ∀ row, P row → IsCount (valueIn read m.field row)
  /-- and so are the counts -/
  counts : m.kind = .remoteAvg → ∀ row, P row → IsCount (valueIn read m.countField row)

variable {read} {P : α → Prop} {m : Measure}

theorem readOptional_eq {field : Option Source} {row : α}
    (h : ∃ v, readOptional read row field = .ok v) :
    readOptional read row field = .ok (valueIn read field row) := by
  obtain ⟨v, hv⟩ := h
  rw [valueIn, hv]
  rfl

/-- What can be folded over rows has the tally that is known. -/
theorem Steady.tallies (h : Steady read P m) : Rollup.Tallies read P (tallied read) m := by
  intro rows hrows
  -- the tally so far is that of the values so far, and a row adds the values in it
  induction rows using List.reverseRecOn with
  | nil => rw [tallied, List.map_nil, List.map_nil, after_nil]; rfl
  | append_singleton rows row ih =>
    obtain ⟨hrows, hrow⟩ := List.forall_mem_append.1 hrows
    have hrow := hrow row (List.mem_singleton_self row)
    rw [Measure.tally_concat, ih hrows]
    have stepped : step read m (tallied read m rows) row
        = .ok (tallied read m (rows ++ [row])) := by
      rw [step, readOptional_eq (h.field row hrow), readOptional_eq (h.countField row hrow),
        tallied, tallied, List.map_append, List.map_append]
      exact stepWith_after _ _ (fun adds => h.values adds row hrow)
        fun paired => h.counts paired row hrow
    exact stepped

end Rows

end Tally

end DataGrid
