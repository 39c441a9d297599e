import DataGrid.Proofs.Accessor.Values
import DataGrid.Proofs.Store.Extremes
import DataGrid.Proofs.Store.Standing

/-!
# The cells of flat rows

Over records that conform to a shape, a cell of a flat row is a function of the tuple of keys and of
the values of the records that have it: `Store.cellOf`. A store computes it for columns that suit
the shape (`Store.cell_eq`): sums and averages of integers, extremes of exact values.
-/

namespace DataGrid

open Value (ints IsCount)
open Tally (sumOver bestOf keepBetter ofLength total)

namespace Value

/-- Among integers and nulls the integers are what is not null. -/
theorem filter_isNull_of_isCount {vs : List Value} (h : ∀ v ∈ vs, IsCount v) :
    vs.filter (!·.isNull) = (ints vs).map .int := by
  induction vs with
  | nil => rfl
  | cons v vs ih =>
    obtain ⟨hv, hvs⟩ := List.forall_mem_cons.1 h
    rcases hv with rfl | ⟨i, rfl⟩
    · rw [List.filter_cons_of_neg (by simp [isNull]), ih hvs]
      rfl
    · rw [List.filter_cons_of_pos (by simp [isNull]), ih hvs]
      rfl

end Value

namespace Tally

/-- Nulls do not count among the best. -/
theorem bestOf_filter (wanted : Ordering) (vs : List Value) :
    bestOf wanted (vs.filter (!·.isNull)) = bestOf wanted vs := by
  have passes : ∀ current v, (if !v.isNull then keepBetter wanted current v else current)
      = keepBetter wanted current v := by
    intro current v
    cases hv : v.isNull <;> simp [keepBetter, hv]
  rw [bestOf, bestOf, List.foldl_filter]
  simp only [passes]

end Tally

namespace Store

section Cell

variable {vs : List Value}

/-- A sum of integers grows by each of them. -/
theorem foldlM_add_int (is : List Int64) (sum : Int) :
    (is.map Value.int).foldlM TypedSum.add (.int sum)
      = .ok (.int (sum + (is.map Int64.toInt).sum)) := by
  induction is generalizing sum with
  | nil => simp [pure, Except.pure]
  | cons i is ih =>
    rw [List.map_cons, List.foldlM_cons]
    refine (ih (sum + i.toInt)).trans ?_
    rw [List.map_cons, List.sum_cons, Int.add_assoc]

/-- The cell of a sum of integers is their sum. -/
theorem sumOf_eq {selector : String} {a : Accessor} (integer : a.type.isInteger = true)
    (counts : ∀ v ∈ vs, IsCount v) :
    sumOf selector (some a) (vs.filter (!·.isNull)) = .ok (sumOver vs) := by
  have zero : TypedSum.zero? a.type = some (.int 0) := by
    cases h : a.type <;> rw [h] at integer <;> first | rfl | exact nomatch integer
  rw [sumOf, sumOver, Value.filter_isNull_of_isCount counts, List.isEmpty_map]
  split
  · rfl
  · simp only [Option.bind_some, zero, foldlM_add_int, Int.zero_add]
    rfl

end Cell

variable {shape : Shape} {t members : List Value}

/-- The values of a column are those at its path, without nulls. -/
theorem valuesOf_eq {path : String} {a : Accessor} (ha : Accessor.ofPath shape true path = .ok a)
    (htype : a.type.isDynamic = false) (conform : ∀ m ∈ members, shape.conforms m = true) :
    valuesOf (some a) members
      = .ok ((members.map (shape.valueAt path)).filter (!·.isNull)) := by
  have read : members.mapM a.read = .ok (members.map (shape.valueAt path)) :=
    Outcome.mapM_ok fun m hm => (Shape.read_eq_valueAt ha htype (conform m hm)).1
  simp only [valuesOf, read]
  rfl

/-- Whether a column can be computed from the values of a shape, and from parts of them. -/
def Suits (shape : Shape) : Column → Prop
  | .sum p | .avgSum p | .avgCount p => shape.PathIs FieldType.isInteger p
  | .min p | .max p => shape.PathIs FieldType.isExact p
  | .record | .key _ | .rowCount => True

/-- The value of a column over the records with a tuple of keys. -/
def cellOf (shape : Shape) (t members : List Value) : Column → Value
  | .record => .null
  | .key level => keyIn t level
  | .rowCount => ofLength members.length
  | .avgCount p => ofLength (ints (members.map (shape.valueAt p))).length
  | .sum p | .avgSum p => sumOver (members.map (shape.valueAt p))
  | .min p => bestOf .lt (members.map (shape.valueAt p))
  | .max p => bestOf .gt (members.map (shape.valueAt p))

/-- A store computes the cells of columns that suit its shape. -/
theorem cell_eq {c : Column} {rc : ResolvedColumn} (resolved : resolvedColumn shape c = .ok rc)
    (suits : Suits shape c) (conform : ∀ m ∈ members, shape.conforms m = true) :
    cell rc t members = .ok (cellOf shape t members c) := by
  have selected {p : String} {P : FieldType → Bool} (hc : selectorOf? c = some p)
      (exact : ∀ t : FieldType, P t = true → t.isExact = true) (htype : shape.PathIs P p) :
      ∃ a, rc = ⟨c, some a⟩ ∧ P a.type = true
        ∧ valuesOf (some a) members
          = .ok ((members.map (shape.valueAt p)).filter (!·.isNull)) := by
    simp only [resolvedColumn, hc] at resolved
    obtain ⟨a, ha, h⟩ := Outcome.bind_eq_ok.1 resolved
    cases h
    exact ⟨a, rfl, htype a ha, valuesOf_eq ha
      (FieldType.isDynamic_of_isExact (exact _ (htype a ha))) conform⟩
  have counts {p : String} (htype : shape.PathIs FieldType.isInteger p) :
      ∀ v ∈ members.map (shape.valueAt p), IsCount v := Shape.int_valuesAt htype conform
  have present {p : String} (htype : shape.PathIs FieldType.isExact p) :
      (∀ v ∈ (members.map (shape.valueAt p)).filter (!·.isNull), v.isExact = true)
        ∧ ∀ v ∈ (members.map (shape.valueAt p)).filter (!·.isNull), v.isNull = false := by
    refine ⟨fun v hv => ?_, fun v hv => by simpa using (List.mem_filter.1 hv).2⟩
    exact Shape.isExact_valuesAt htype conform v (List.mem_filter.1 hv).1
  cases c with
  | record => cases resolved; rfl
  | key level => cases resolved; rfl
  | rowCount => cases resolved; rfl
  | avgCount p =>
    obtain ⟨a, rfl, -, values⟩ := selected rfl (fun _ => FieldType.isExact_of_isInteger) suits
    simp only [cell, values, cellOf, Value.filter_isNull_of_isCount (counts suits)]
    simp [Except.mapError, Except.map, ofLength]
  | sum p | avgSum p =>
    obtain ⟨a, rfl, integer, values⟩ :=
      selected rfl (fun _ => FieldType.isExact_of_isInteger) suits
    simp only [cell, values]
    exact sumOf_eq integer (counts suits)
  | min p =>
    obtain ⟨a, rfl, -, values⟩ := selected rfl (fun _ => id) suits
    obtain ⟨-, nonnull⟩ := present suits
    simp only [cell, values, cellOf]
    exact congrArg Except.ok ((leastOf_eq_bestOf nonnull).trans (Tally.bestOf_filter _ _))
  | max p =>
    obtain ⟨a, rfl, -, values⟩ := selected rfl (fun _ => id) suits
    obtain ⟨exact, nonnull⟩ := present suits
    simp only [cell, values, cellOf]
    exact congrArg Except.ok ((greatestOf_eq exact nonnull).trans (Tally.bestOf_filter _ _))

end Store

end DataGrid
