import DataGrid.Proofs.Store.Cells
import DataGrid.Proofs.Summary
import Mathlib.Data.List.Flatten

/-!
# Summaries of flat rows

A flat row holds the cells of a tuple of keys. Folded over flat rows, a planned summary comes out at
the value of its summary over the records of all rows (`finish_planned`).
-/

namespace DataGrid

open Value (ints IsCount)
open Tally (total sumOver bestOf ofLength tallied valueIn readOptional Steady)
open Projection (columnsFor flatKind settle)
open Summary (Splits SumFits)

namespace Store

variable {shape : Shape} {columns : List Column} {tuple : Value → List Value}
variable {records : List Value}

/-- The flat row of a tuple of keys. -/
def flatRow (shape : Shape) (columns : List Column) (tuple : Value → List Value)
    (records t : List Value) : Row :=
  ⟨columns.map (cellOf shape t (classOf tuple records t))⟩

/-- A flat row has the cell of its column at each position. -/
theorem get_flatRow {n : Nat} {c : Column} (h : columns[n]? = some c) (t : List Value) :
    (flatRow shape columns tuple records t).get n
      = .ok (cellOf shape t (classOf tuple records t) c) := by
  rw [Row.get, flatRow, List.getElem?_map, h]
  rfl

/-- A measure of a position reads that cell. -/
theorem valueIn_flatRow {n : Nat} {c : Column} (h : columns[n]? = some c) (t : List Value) :
    valueIn Row.read (some (.position n)) (flatRow shape columns tuple records t)
      = cellOf shape t (classOf tuple records t) c := by
  rw [valueIn, readOptional, Row.read, get_flatRow h]
  rfl

/-- What a planned summary reads for a summary of a request: its columns, or the number of records
if it counts. -/
structure Plans (columns : List Column) (s : Summary) (p : PlannedSummary) : Prop where
  /-- the kind over flat rows -/
  kind : p.kind = flatKind s.kind
  /-- the columns of the summary -/
  reads : columnsFor s <+: columns.drop p.position
  /-- the number of records -/
  counts : s.kind = .count → columns[p.position]? = some .rowCount

theorem Plans.column {s : Summary} {p : PlannedSummary} (h : Plans columns s p) {i : Nat}
    {c : Column} (hi : (columnsFor s)[i]? = some c) : columns[p.position + i]? = some c := by
  obtain ⟨rest, hrest⟩ := h.reads
  rw [← List.getElem?_drop, ← hrest]
  exact (List.getElem?_append_left (List.getElem?_eq_some_iff.1 hi).1).trans hi

/-- The first column of a summary stands at the position. -/
theorem Plans.first {s : Summary} {p : PlannedSummary} (h : Plans columns s p) {c : Column}
    (hc : (columnsFor s)[0]? = some c) : columns[p.position]? = some c := h.column hc

/-- Summaries of a plan read what they need once counts are settled. -/
theorem plans_settle {s : Summary} {p : PlannedSummary} (splits : s.Splits shape)
    (h : Projection.Reads columns s p) {countPosition : Nat}
    (count : columns[countPosition]? = some .rowCount) :
    Plans columns s (settle countPosition p) := by
  obtain ⟨selector, kind⟩ := s
  obtain ⟨hkind, reads⟩ := h
  cases kind with
  | sum | avg | min | max =>
    have same : settle countPosition p = p := by rw [settle, hkind]; rfl
    rw [same]
    exact ⟨hkind, reads, fun h => nomatch h⟩
  | count =>
    have moved : settle countPosition p = { p with position := countPosition } := by
      rw [settle, hkind]
      rfl
    rw [moved]
    exact ⟨hkind, List.nil_prefix, fun _ => count⟩
  | remoteCount | remoteAvg => exact splits.elim

/-! ### Folding flat rows -/

section Fold

variable {ts : List (List Value)} {xs : List Value} {s : Summary} {p : PlannedSummary}

/-- Tuples cover records if the records that have them are these. -/
structure Covers (shape : Shape) (tuple : Value → List Value) (records : List Value)
    (ts : List (List Value)) (xs : List Value) : Prop where
  /-- the records of the tuples are these -/
  perm : (ts.flatMap (classOf tuple records)).Perm xs
  /-- the records conform -/
  sound : Sound shape xs

/-- What the classes hold is what they cover, in another order. -/
theorem Covers.parts_perm (h : Covers shape tuple records ts xs) (f : Value → Value) :
    (ts.map fun t => (classOf tuple records t).map f).flatten.Perm (xs.map f) := by
  have flat := h.perm.map f
  rwa [List.map_flatMap, List.flatMap_def] at flat

/-- Classes have together as many records as they cover. -/
theorem Covers.sum_length (h : Covers shape tuple records ts xs) :
    (ts.map fun t => (classOf tuple records t).length).sum = xs.length := by
  rw [← h.perm.length_eq, List.length_flatMap]

theorem Covers.of_perm {us : List (List Value)} (h : Covers shape tuple records ts xs)
    (perm : us.Perm ts) : Covers shape tuple records us xs :=
  ⟨(perm.flatMap_right _).trans h.perm, h.sound⟩

/-- Some of the classes cover what they hold. -/
theorem Covers.sublist {us : List (List Value)} (h : Covers shape tuple records ts xs)
    (sub : us.Sublist ts) :
    Covers shape tuple records us (us.flatMap (classOf tuple records)) :=
  ⟨.refl _, (h.sound.perm h.perm).sublist (sub.flatMap _)⟩

/-- The values at a position of flat rows. -/
theorem map_valueIn {n : Nat} {c : Column} (h : columns[n]? = some c) :
    (ts.map (flatRow shape columns tuple records)).map (valueIn Row.read (some (.position n)))
      = ts.map fun t => cellOf shape t (classOf tuple records t) c := by
  rw [List.map_map]
  exact List.map_congr_left fun t _ => valueIn_flatRow h t

/-- The sum over a part is an integer or a null. -/
theorem isCount_sumOver {vs : List Value} (h : Integer.Fits (total vs)) : IsCount (sumOver vs) := by
  rw [sumOver]
  split
  · exact .inl rfl
  · rw [Sum.ofInt, Integer.narrow?, if_pos h]
    exact .inr ⟨_, rfl⟩

/-- The measure of a column can be folded over flat rows. -/
theorem steady_column {kind : SummaryKind} (single : kind ≠ .remoteAvg) {n : Nat} {c : Column}
    (h : columns[n]? = some c)
    (counts : kind.addsUp = true → ∀ t ∈ ts, IsCount (cellOf shape t (classOf tuple records t) c)) :
    Steady Row.read (· ∈ ts.map (flatRow shape columns tuple records))
      (.of kind (some (.position n))) := by
  refine ⟨fun row hrow => ?_, fun row _ => ⟨.null, rfl⟩, fun adds row hrow => ?_,
    fun paired => absurd paired single⟩
  · obtain ⟨t, -, rfl⟩ := List.mem_map.1 hrow
    exact ⟨_, get_flatRow h t⟩
  · obtain ⟨t, ht, rfl⟩ := List.mem_map.1 hrow
    exact (valueIn_flatRow h t).symm ▸ counts adds t ht

/-- The measure of the two columns of an average can be folded over flat rows. -/
theorem steady_pairedAvg {n : Nat} {path : String} (hsum : columns[n]? = some (.avgSum path))
    (hcount : columns[n + 1]? = some (.avgCount path))
    (fits : ∀ t ∈ ts, Integer.Fits (total ((classOf tuple records t).map (shape.valueAt path)))) :
    Steady Row.read (· ∈ ts.map (flatRow shape columns tuple records))
      (.pairedAvg n (n + 1)) := by
  constructor
  · intro row hrow
    obtain ⟨t, -, rfl⟩ := List.mem_map.1 hrow
    exact ⟨_, get_flatRow hsum t⟩
  · intro row hrow
    obtain ⟨t, -, rfl⟩ := List.mem_map.1 hrow
    exact ⟨_, get_flatRow hcount t⟩
  · intro _ row hrow
    obtain ⟨t, ht, rfl⟩ := List.mem_map.1 hrow
    exact (valueIn_flatRow hsum t).symm ▸ isCount_sumOver (fits t ht)
  · intro _ row hrow
    obtain ⟨t, ht, rfl⟩ := List.mem_map.1 hrow
    exact (valueIn_flatRow hcount t).symm ▸ .inr ⟨_, rfl⟩

/-- An entry of one column measures it. -/
theorem Plans.measure_of (h : Plans columns s p) (splits : s.Splits shape)
    (single : s.kind ≠ .avg) :
    p.measure = .of (flatKind s.kind) (some (.position p.position)) := by
  obtain ⟨selector, kind⟩ := s
  rw [PlannedSummary.measure, h.kind]
  cases kind <;> first | rfl | exact absurd rfl single | exact splits.elim

/-- An average measures its sum and the count beside it. -/
theorem Plans.measure_avg (h : Plans columns s p) (avg : s.kind = .avg) :
    p.measure = .pairedAvg p.position (p.position + 1) := by
  rw [PlannedSummary.measure, h.kind, avg]
  rfl

/-- Planned summaries can be folded over flat rows. -/
theorem steady_planned (h : Plans columns s p) (splits : s.Splits shape)
    (fits : ∀ t ∈ ts, s.SumFits shape (classOf tuple records t)) :
    Steady Row.read (· ∈ ts.map (flatRow shape columns tuple records)) p.measure := by
  -- an average reads two columns, any other summary one
  by_cases avg : s.kind = .avg
  · rw [h.measure_avg avg]
    obtain ⟨selector, kind⟩ := s
    cases avg
    exact steady_pairedAvg (h.first rfl) (h.column (i := 1) rfl)
      fun t ht => fits t ht rfl
  · rw [h.measure_of splits avg]
    obtain ⟨selector, kind⟩ := s
    cases kind with
    | sum =>
      exact steady_column (by simp [flatKind]) (h.first rfl)
        fun _ t ht => isCount_sumOver (fits t ht rfl)
    | count => exact steady_column (by simp [flatKind]) (h.counts rfl) fun _ t _ => .inr ⟨_, rfl⟩
    | min => exact steady_column (by simp [flatKind]) (h.first rfl) fun adds => nomatch adds
    | max => exact steady_column (by simp [flatKind]) (h.first rfl) fun adds => nomatch adds
    | avg => exact absurd rfl avg
    | remoteCount | remoteAvg => exact splits.elim

/-- Every part of a sum that adds up stays within a word. -/
theorem fits_parts (fits : ∀ t ∈ ts, s.SumFits shape (classOf tuple records t))
    (adds : s.kind.addsUp = true) :
    ∀ part ∈ ts.map fun t => (classOf tuple records t).map (shape.valueAt s.path),
      Integer.Fits (total part) := by
  intro part hpart
  obtain ⟨t, ht, rfl⟩ := List.mem_map.1 hpart
  exact fits t ht adds

/-- Over flat rows the two columns of an average come out at the average over the records. -/
theorem finish_pairedAvg (h : Plans columns s p) (avg : s.kind = .avg)
    (covers : Covers shape tuple records ts xs)
    (fits : ∀ t ∈ ts, s.SumFits shape (classOf tuple records t)) :
    (tallied Row.read p.measure (ts.map (flatRow shape columns tuple records))).finish
      = s.valueOver shape xs := by
  have perm := covers.parts_perm (shape.valueAt s.path)
  have fits := fits_parts fits (by rw [avg]; rfl)
  have length : Integer.Fits ((xs.map (shape.valueAt s.path)).length : Int) := by
    rw [List.length_map]
    exact covers.sound.length
  have value := Tally.finish_remoteAvg perm fits length []
  rw [Tally.finish_after_avg, List.map_map, List.map_map] at value
  rw [h.measure_avg avg, tallied, Measure.pairedAvg]
  obtain ⟨selector, kind⟩ := s
  cases avg
  simp only [map_valueIn (h.first rfl), map_valueIn (h.column (i := 1) rfl)]
  exact value

/-- Over flat rows a planned summary comes out at the value of its summary over the records of all
rows. -/
theorem finish_planned (h : Plans columns s p) (splits : s.Splits shape)
    (covers : Covers shape tuple records ts xs)
    (fits : ∀ t ∈ ts, s.SumFits shape (classOf tuple records t)) :
    (tallied Row.read p.measure (ts.map (flatRow shape columns tuple records))).finish
      = s.valueOver shape xs := by
  by_cases avg : s.kind = .avg
  · exact finish_pairedAvg h avg covers fits
  · have perm := covers.parts_perm (shape.valueAt s.path)
    have fits := fits_parts fits
    rw [h.measure_of splits avg, tallied, Measure.of]
    obtain ⟨selector, kind⟩ := s
    cases kind with
    | sum =>
      simp only [map_valueIn (h.first rfl)]
      have value := Tally.sumOver_parts perm (fits rfl)
      rw [List.map_map] at value
      exact (Tally.finish_after_sum _ _).trans value
    | count =>
      simp only [map_valueIn (h.counts rfl)]
      have value := Tally.finish_remoteCount
        (by rw [covers.sum_length]; exact covers.sound.length)
      rw [List.map_map, covers.sum_length] at value
      exact value _
    | min =>
      simp only [map_valueIn (h.first rfl)]
      have value := Tally.bestOf_parts (.inl rfl) perm
        (Shape.isExact_valuesAt splits covers.sound.conform)
      rw [List.map_map] at value
      exact (Tally.finish_after_min _ _).trans value
    | max =>
      simp only [map_valueIn (h.first rfl)]
      have value := Tally.bestOf_parts (.inr rfl) perm
        (Shape.isExact_valuesAt splits covers.sound.conform)
      rw [List.map_map] at value
      exact (Tally.finish_after_max _ _).trans value
    | avg => exact absurd rfl avg
    | remoteCount | remoteAvg => exact splits.elim

end Fold

end Store

end DataGrid
