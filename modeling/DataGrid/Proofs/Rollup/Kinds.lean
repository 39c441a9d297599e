import DataGrid.Proofs.Rollup
import DataGrid.Proofs.SumZeros
import Mathlib.Data.List.Induction

/-!
# What summaries may give

`SummaryKind.mayGive` tells which values a kind of summary gives. A tally keeps its kind, and what
comes of it is such a value, or a null in place of a sum of no values; the zeros that are put in
place of null sums leave no such null (`Summary.Answered.filled`).
-/

namespace DataGrid

/-- A number or a span. -/
def Value.isAmount : Value → Bool
  | .int _ | .float _ | .span _ => true
  | _ => false

/-- Whether a kind of summary may give a value: sums are never null, and counts are integers. -/
def SummaryKind.mayGive (kind : SummaryKind) (v : Value) : Bool :=
  match kind with
  | .sum => v.isAmount
  | .count | .remoteCount => v.asInt?.isSome
  | .avg | .remoteAvg => v.isNull || v.isAmount
  | .min | .max => true

/-- An exact sum is an amount, as an integer or as a double. -/
theorem Sum.isAmount_ofInt (sum : Int) : (ofInt sum).isAmount = true := by
  rw [ofInt]
  split <;> rfl

namespace RunningSum

/-- A running sum is an amount. -/
theorem isAmount_value (total : RunningSum) : total.value.isAmount = true := by
  cases total with
  | int sum => exact Sum.isAmount_ofInt sum
  | empty | float _ | span _ => rfl

/-- An average is one too, or null. -/
theorem isAmount_divide (total : RunningSum) (n : Nat) :
    ((total.divide n).isNull || (total.divide n).isAmount) = true := by
  cases total with
  | empty => rfl
  | int sum =>
    rw [divide, Sum.averageOfInt]
    split <;> rfl
  | float sum =>
    rw [divide, Sum.averageOfFloat]
    split <;> rfl
  | span sum =>
    rw [divide, Sum.averageOfSpan]
    split <;> rfl

end RunningSum

/-- So is the sum of no values, of whatever type. -/
theorem TypedSum.isAmount_sumOfNone (type : FieldType) : (sumOfNone type).isAmount = true := by
  cases type <;> rfl

/-! ### Tallies keep their kind -/

namespace Tally

/-- The kind of a tally. -/
def kind : Tally → SummaryKind
  | sum _ _ => .sum
  | count _ => .count
  | avg _ _ => .avg
  | min _ => .min
  | max _ => .max
  | remoteCount _ => .remoteCount
  | remoteAvg _ _ => .remoteAvg

@[simp] theorem kind_start (k : SummaryKind) : (start k).kind = k := by
  cases k <;> rfl

/-- A step keeps the kind of a tally. -/
theorem kind_stepWith {t t' : Tally} {v : Value} {c : Except ReadError Value}
    (h : t.stepWith v c = .ok t') : t'.kind = t.kind := by
  cases t with
  | sum total seen =>
    obtain ⟨_, -, rfl⟩ := Outcome.map_eq_ok.1 h
    rfl
  | avg total n =>
    obtain ⟨_, -, rfl⟩ := Outcome.map_eq_ok.1 h
    rfl
  | remoteCount n =>
    obtain ⟨_, -, rfl⟩ := Outcome.map_eq_ok.1 h
    rfl
  | remoteAvg total n =>
    obtain ⟨_, -, h⟩ := Outcome.bind_eq_ok.1 h
    obtain ⟨_, -, h⟩ := Outcome.bind_eq_ok.1 h
    obtain ⟨_, -, h⟩ := Outcome.bind_eq_ok.1 h
    cases h
    rfl
  | count _ | min _ | max _ =>
    cases h
    rfl

/-- What comes of a tally: a value of its kind, or a null for a sum of no values. -/
theorem finish_mayBe (t : Tally) :
    t.kind.mayGive t.finish = true ∨ t.kind = .sum ∧ t.finish = .null := by
  cases t with
  | sum total seen =>
    cases seen with
    | false => exact .inr ⟨rfl, rfl⟩
    | true => exact .inl total.isAmount_value
  | avg total n => exact .inl (total.isAmount_divide n)
  | remoteAvg total n => exact .inl (total.isAmount_divide n.toInt.toNat)
  | count _ | min _ | max _ | remoteCount _ => exact .inl rfl

end Tally

/-- So a tally has the kind of its measure. -/
theorem Measure.kind_of_tally {α : Type} {read : Source → α → Except ReadError Value} {m : Measure}
    {rows : List α} {t : Tally} (h : m.tally read rows = .ok t) : t.kind = m.kind := by
  induction rows using List.reverseRecOn generalizing t with
  | nil =>
    cases h
    exact Tally.kind_start m.kind
  | append_singleton rows row ih =>
    rw [tally_concat] at h
    obtain ⟨before, hbefore, h⟩ := Outcome.bind_eq_ok.1 h
    obtain ⟨v, -, h⟩ := Outcome.bind_eq_ok.1 h
    rw [Tally.kind_stepWith h, ih hbefore]

/-! ### The values of summaries -/

namespace Summary

/-- There are values exactly if there are summaries, and then one for each in order. -/
def Answered (R : Summary → Value → Prop) (ss : List Summary) : Option (List Value) → Prop
  | none => ss = []
  | some values => ss ≠ [] ∧ List.Forall₂ R ss values

/-- A value that a summary may give. -/
def Fits (s : Summary) (v : Value) : Prop := s.kind.mayGive v = true

/-- A value that a summary may give before zeros are put in place of null sums. -/
def NearlyFits (s : Summary) (v : Value) : Prop := s.Fits v ∨ s.kind = .sum ∧ v = .null

end Summary

open Projection (flatKind)

/-- Over flat rows a kind may give what it may over records. -/
theorem SummaryKind.mayGive_flatKind (k : SummaryKind) (v : Value) :
    (flatKind k).mayGive v = k.mayGive v := by
  cases k <;> rfl

theorem Projection.flatKind_eq_sum {k : SummaryKind} : flatKind k = .sum ↔ k = .sum := by
  cases k <;> simp [flatKind]

theorem Projection.flatKind_flatKind (k : SummaryKind) : flatKind (flatKind k) = flatKind k := by
  cases k <;> rfl

/-- A measure computes what a summary asks for, over records or over flat rows. -/
def Measure.Serves (s : Summary) (m : Measure) : Prop := flatKind m.kind = flatKind s.kind

/-- A measure gives values that the summary may give, but for the null of a sum. -/
theorem Measure.Serves.nearlyFits {α : Type} {read : Source → α → Except ReadError Value}
    {s : Summary} {m : Measure} (serves : m.Serves s) {rows : List α} {v : Value}
    (h : m.fold read rows = .ok v) : s.NearlyFits v := by
  obtain ⟨t, ht, rfl⟩ := Outcome.map_eq_ok.1 h
  have same := Measure.kind_of_tally ht
  rcases t.finish_mayBe with fits | ⟨sum, null⟩
  · refine .inl ?_
    rw [Summary.Fits, ← SummaryKind.mayGive_flatKind, ← serves, ← same,
      SummaryKind.mayGive_flatKind]
    exact fits
  · refine .inr ⟨?_, null⟩
    rw [← Projection.flatKind_eq_sum, ← serves, ← same, sum]
    rfl

/-- So do measures, each for its summary. -/
theorem Measure.nearlyFit {α : Type} {read : Source → α → Except ReadError Value}
    {ss : List Summary} {ms : List Measure} (serve : List.Forall₂ (fun s m => m.Serves s) ss ms)
    {rows : List α} {values : List Value}
    (h : List.Forall₂ (fun m v => m.fold read rows = .ok v) ms values) :
    List.Forall₂ Summary.NearlyFits ss values := by
  induction serve generalizing values with
  | nil =>
    rw [List.forall₂_nil_left_iff] at h
    rw [h]
    exact .nil
  | cons hm _ ih =>
    obtain ⟨v, rest, hv, hrest, rfl⟩ := List.forall₂_cons_left_iff.1 h
    exact .cons (hm.nearlyFits hv) (ih hrest)

/-- The values of measures that serve summaries, where there were none before. -/
theorem Measure.Gives.answered {α : Type} {read : Source → α → Except ReadError Value}
    {ss : List Summary} {ms : List Measure} (serve : List.Forall₂ (fun s m => m.Serves s) ss ms)
    {rows : List α} {values? : Option (List Value)} (h : Gives read ms rows none values?) :
    Summary.Answered Summary.NearlyFits ss values? := by
  rw [Gives] at h
  split at h
  next none =>
    rw [none, List.forall₂_nil_right_iff] at serve
    rw [h]
    exact serve
  next some =>
    obtain ⟨values, rfl, hvalues⟩ := h
    refine ⟨fun empty => some ?_, Measure.nearlyFit serve hvalues⟩
    rw [empty, List.forall₂_nil_left_iff] at serve
    exact serve

/-- The measures of summaries serve these. -/
theorem Rollup.serve_of_measures {shape : Shape} {guardNulls : Bool} {ss : List Summary}
    {ms : List Measure} (h : measures shape guardNulls ss = .ok ms) :
    List.Forall₂ (fun s m => m.Serves s) ss ms := by
  refine (Outcome.mapM_eq_ok.1 h).imp fun s m hm => ?_
  obtain ⟨a?, -, rfl⟩ := Outcome.map_eq_ok.1 hm
  rfl

/-! ### Zeros in place of null sums -/

namespace SumZeros

variable {shape : Shape} {guardNulls : Bool}

/-- A sum that is null becomes the zero of its selector, which every sum that resolves has. -/
theorem filled_fits {s : Summary} {v : Value}
    (resolves : ∃ a?, s.resolved shape guardNulls = .ok a?) (h : s.NearlyFits v) :
    s.Fits (filled shape guardNulls s v) := by
  rw [filled]
  rcases h with fits | ⟨sum, rfl⟩
  · split
    next selector hkind null hselector =>
      -- no fitting sum is null
      rw [Value.isNull_iff.1 null, Summary.Fits, hkind] at fits
      cases fits
    next => exact fits
  · obtain ⟨a?, hs⟩ := resolves
    rcases Summary.resolved_eq_ok hs with ⟨none, -⟩ | ⟨-, selector, a, hselector, ha, -⟩
    · rw [sum] at none
      cases none
    · rw [Summary.Fits, sum, hselector]
      simp only [Value.isNull, ha]
      exact TypedSum.isAmount_sumOfNone a.type

/-- Once zeros are in place every value is one that its summary may give. -/
theorem filledAll_fits {ss : List Summary} {values : List Value}
    (resolve : Resolve shape guardNulls ss) (h : List.Forall₂ Summary.NearlyFits ss values) :
    List.Forall₂ Summary.Fits ss (filledAll shape guardNulls ss values) := by
  induction h with
  | nil => exact .nil
  | cons hv _ ih =>
    obtain ⟨resolves, resolve⟩ := List.forall_mem_cons.1 resolve
    exact .cons (filled_fits resolves hv) (ih resolve)

end SumZeros

/-- So are the values of a group or the totals, if there are any. -/
theorem Summary.Answered.filled {shape : Shape} {guardNulls : Bool} {ss : List Summary}
    {values? : Option (List Value)} (h : Answered NearlyFits ss values?)
    (resolve : SumZeros.Resolve shape guardNulls ss) :
    Answered Fits ss (values?.map (SumZeros.filledAll shape guardNulls ss)) := by
  cases values? with
  | none => exact h
  | some values => exact ⟨h.1, SumZeros.filledAll_fits resolve h.2⟩

end DataGrid
