import DataGrid.Proofs.Merging
import DataGrid.Proofs.Planning

/-!
# What summaries are

Over records that conform to a shape, a summary that `Summary.Splits` has a value that is a function
of the values at its path, up to their order: `Summary.valueOver`. It is the outcome of the tally of
its measure (`finish_recordMeasure`).
-/

namespace DataGrid

open Value (ints IsCount)
open Tally (total sumOver bestOf ofLength tallied valueIn Steady)

/-- Records that conform to a shape, no more of them than a word can tell. -/
structure Sound (shape : Shape) (records : List Value) : Prop where
  /-- the records conform -/
  conform : ∀ r ∈ records, shape.conforms r = true
  /-- their number is an integer of a word -/
  length : Integer.Fits (records.length : Int)

/-- There are fewer than an unsigned word can tell. -/
theorem Sound.length_lt {shape : Shape} {records : List Value} (h : Sound shape records) :
    records.length < UInt64.size := by
  have high := h.length.2
  simp only [Integer.greatest] at high
  simp only [UInt64.size]
  omega

/-- A smaller number fits, too. -/
theorem Integer.fits_of_le {m n : Nat} (h : Fits (n : Int)) (le : m ≤ n) : Fits (m : Int) :=
  ⟨by simp only [least]; omega, by have := h.2; omega⟩

theorem Sound.sublist {shape : Shape} {records part : List Value} (h : Sound shape records)
    (sub : part.Sublist records) : Sound shape part :=
  ⟨fun r hr => h.conform r (sub.mem hr), Integer.fits_of_le h.length sub.length_le⟩

theorem Sound.perm {shape : Shape} {records records' : List Value} (h : Sound shape records)
    (perm : records'.Perm records) : Sound shape records' :=
  ⟨fun r hr => h.conform r (perm.mem_iff.1 hr), perm.length_eq ▸ h.length⟩

namespace Summary

/-- The path of a summary, empty if it has none. -/
def path (s : Summary) : String := s.selector.getD ""

/-- A summary whose value over records comes out of its values over parts of them: a count, a sum or
an average of integers, or an extreme of exact values. -/
def Splits (shape : Shape) (s : Summary) : Prop :=
  match s.kind with
  | .sum | .avg => shape.PathIs FieldType.isInteger s.path
  | .min | .max => shape.PathIs FieldType.isExact s.path
  | .count => True
  | .remoteCount | .remoteAvg => False

/-- A sum over records, if the summary adds up, stays within a word. -/
def SumFits (shape : Shape) (s : Summary) (records : List Value) : Prop :=
  s.kind.addsUp = true → Integer.Fits (total (records.map (shape.valueAt s.path)))

/-- The value of a summary over records. -/
def valueOver (shape : Shape) (s : Summary) (records : List Value) : Value :=
  let values := records.map (shape.valueAt s.path)
  match s.kind with
  | .sum => sumOver values
  | .count | .remoteCount => ofLength records.length
  | .avg | .remoteAvg => Sum.averageOfInt (total values) (ints values).length
  | .min => bestOf .lt values
  | .max => bestOf .gt values

instance (shape : Shape) (s : Summary) : Decidable (s.Splits shape) :=
  match s with
  | ⟨_, .sum⟩ | ⟨_, .avg⟩ | ⟨_, .min⟩ | ⟨_, .max⟩ =>
    inferInstanceAs (Decidable (Shape.PathIs _ _ _))
  | ⟨_, .count⟩ => inferInstanceAs (Decidable True)
  | ⟨_, .remoteCount⟩ | ⟨_, .remoteAvg⟩ => inferInstanceAs (Decidable False)

instance (shape : Shape) (s : Summary) (records : List Value) :
    Decidable (s.SumFits shape records) :=
  inferInstanceAs (Decidable (_ → Integer.Fits _))

variable {shape : Shape} {s : Summary} {records records' : List Value}

/-- The order of records does not matter. -/
theorem valueOver_perm (splits : s.Splits shape) (conform : ∀ r ∈ records', shape.conforms r = true)
    (perm : records.Perm records') : s.valueOver shape records = s.valueOver shape records' := by
  obtain ⟨selector, kind⟩ := s
  have perm' := perm.map (shape.valueAt (path ⟨selector, kind⟩))
  cases kind with
  | sum => exact Tally.sumOver_perm perm'
  | count => exact congrArg ofLength perm.length_eq
  | avg =>
    have length : (ints _).length = (ints _).length := (perm'.filterMap Value.asInt?).length_eq
    simp only [valueOver, Tally.total_perm perm', length]
  | min => exact Tally.bestOf_perm (.inl rfl) (Shape.isExact_valuesAt splits conform) perm'
  | max => exact Tally.bestOf_perm (.inr rfl) (Shape.isExact_valuesAt splits conform) perm'
  | remoteCount => exact splits.elim
  | remoteAvg => exact splits.elim

/-- The type that a splitting summary reads is known. -/
theorem Splits.known {a : Accessor} (splits : s.Splits shape) (reads : s.kind.readsSelector = true)
    (ha : Accessor.ofPath shape true s.path = .ok a) : a.type.isDynamic = false := by
  obtain ⟨selector, kind⟩ := s
  cases kind with
  | sum | avg =>
    exact FieldType.isDynamic_of_isExact (FieldType.isExact_of_isInteger (splits a ha))
  | min | max => exact FieldType.isDynamic_of_isExact (splits a ha)
  | count | remoteCount => cases reads
  | remoteAvg => exact splits.elim

end Summary

namespace Rollup

variable {shape : Shape} {s : Summary} {a? : Option Accessor} {records : List Value}

open Summary (Splits)

/-- A measure reads the values at the path of its summary. -/
theorem readOptional_recordMeasure (splits : s.Splits shape)
    (resolved : s.resolved shape true = .ok a?) (reads : s.kind.readsSelector = true) {r : Value}
    (conforms : shape.conforms r = true) :
    Tally.readOptional readRecord r (recordMeasure s a?).field
      = .ok (shape.valueAt s.path r) := by
  rcases Summary.resolved_eq_ok resolved with ⟨none, -⟩ | ⟨-, selector, a, hselector, ha, rfl⟩
  · rw [none] at reads
    cases reads
  · have hpath : s.path = selector := by rw [Summary.path, hselector]; rfl
    rw [← hpath] at ha
    exact (Shape.read_eq_valueAt ha (splits.known reads ha) conforms).1

/-- The measure of a summary reads the value at its selector. -/
theorem valueIn_recordMeasure (splits : s.Splits shape)
    (resolved : s.resolved shape true = .ok a?) (reads : s.kind.readsSelector = true) {r : Value}
    (conforms : shape.conforms r = true) :
    valueIn readRecord (recordMeasure s a?).field r = shape.valueAt s.path r := by
  rw [valueIn, readOptional_recordMeasure splits resolved reads conforms]
  rfl

/-- Splitting summaries can be folded over records that conform. -/
theorem steady_recordMeasure (splits : s.Splits shape)
    (resolved : s.resolved shape true = .ok a?) :
    Steady readRecord (fun r => shape.conforms r = true) (recordMeasure s a?) := by
  refine ⟨fun r hr => ?_, fun r hr => ⟨.null, rfl⟩, fun adds r hr => ?_,
    fun paired r hr => .inl rfl⟩
  · rcases Summary.resolved_eq_ok resolved with ⟨-, rfl⟩ | ⟨reads, -⟩
    · exact ⟨.null, rfl⟩
    · exact ⟨_, readOptional_recordMeasure splits resolved reads hr⟩
  · have reads : s.kind.readsSelector = true := by
      obtain ⟨selector, kind⟩ := s
      cases kind <;> first | rfl | exact splits.elim | cases adds
    rw [valueIn_recordMeasure splits resolved reads hr]
    obtain ⟨selector, kind⟩ := s
    cases kind with
    | sum | avg => exact Shape.int_valueAt splits hr
    | count | min | max => cases adds
    | remoteCount | remoteAvg => exact splits.elim

/-- The tally of a summary over records comes out at its value. -/
theorem finish_recordMeasure (splits : s.Splits shape)
    (resolved : s.resolved shape true = .ok a?) (sound : Sound shape records) :
    (tallied readRecord (recordMeasure s a?) records).finish = s.valueOver shape records := by
  have values (reads : s.kind.readsSelector = true) :
      records.map (valueIn readRecord (recordMeasure s a?).field)
        = records.map (shape.valueAt s.path) :=
    List.map_congr_left fun r hr => valueIn_recordMeasure splits resolved reads (sound.conform r hr)
  have kind : (recordMeasure s a?).kind = s.kind := rfl
  rw [tallied, kind]
  cases hkind : s.kind with
  | sum =>
    rw [values (by rw [hkind]; rfl), Tally.finish_after_sum]
    simp only [Summary.valueOver, hkind]
  | count =>
    simp only [Tally.after, Tally.finish, List.length_map, Summary.valueOver, hkind]
    rw [Integer.saturate_of_fits sound.length, ofLength]
  | avg =>
    rw [values (by rw [hkind]; rfl), Tally.finish_after_avg]
    simp only [Summary.valueOver, hkind]
  | min =>
    rw [values (by rw [hkind]; rfl), Tally.finish_after_min]
    simp only [Summary.valueOver, hkind]
  | max =>
    rw [values (by rw [hkind]; rfl), Tally.finish_after_max]
    simp only [Summary.valueOver, hkind]
  | remoteCount | remoteAvg => simp [Splits, hkind] at splits

/-- A measure is that of a summary. -/
def Measures (shape : Shape) (s : Summary) (m : Measure) : Prop :=
  ∃ a?, s.resolved shape true = .ok a? ∧ m = recordMeasure s a?

/-- Each summary has its measure. -/
theorem measures_eq_ok {ss : List Summary} {ms : List Measure}
    (h : measures shape true ss = .ok ms) : List.Forall₂ (Measures shape) ss ms := by
  refine (Outcome.mapM_eq_ok.1 h).imp fun s m hm => ?_
  obtain ⟨a?, ha, hm⟩ := Outcome.map_eq_ok.1 hm
  exact ⟨a?, ha, hm.symm⟩

variable {ss : List Summary} {ms : List Measure}

/-- Such measures can be folded over records that conform. -/
theorem steady_measures (h : List.Forall₂ (Measures shape) ss ms)
    (splits : ∀ s ∈ ss, s.Splits shape) :
    ∀ m ∈ ms, Steady readRecord (fun r => shape.conforms r = true) m := by
  induction h with
  | nil => exact fun m hm => absurd hm List.not_mem_nil
  | cons hsm _ ih =>
    obtain ⟨a?, resolved, rfl⟩ := hsm
    obtain ⟨hs, hss⟩ := List.forall_mem_cons.1 splits
    exact List.forall_mem_cons.2 ⟨steady_recordMeasure hs resolved, ih hss⟩

/-- What they give over sound records is the value of the summary. -/
theorem finish_measures (h : List.Forall₂ (Measures shape) ss ms)
    (splits : ∀ s ∈ ss, s.Splits shape) (sound : Sound shape records) :
    ms.map (fun m => (tallied readRecord m records).finish)
      = ss.map (·.valueOver shape records) := by
  induction h with
  | nil => rfl
  | cons hsm _ ih =>
    obtain ⟨a?, resolved, rfl⟩ := hsm
    obtain ⟨hs, hss⟩ := List.forall_mem_cons.1 splits
    rw [List.map_cons, List.map_cons, finish_recordMeasure hs resolved sound, ih hss]

end Rollup

end DataGrid
