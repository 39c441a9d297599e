import DataGrid.Proofs.Merging
import DataGrid.Proofs.Planning

/-!
# Records in another order

* `SummaryKind.Of` says what a kind of summary gives over values, with no regard to their order: the
  exact sum of integers, their average, and the least and the greatest of exact values. The tallies
  come to that (`SummaryKind.of_finish`), and to the same in every order (`finish_after_perm`).
* The integers that a tally keeps fit into 128 bits, and its numbers into 64, over fewer than 2 ^ 64
  values (`Tally.held_after`).
* So a rollup gives the same totals over the same records in every order
  (`Rollup.run_reordered`).
-/

namespace DataGrid

open Value (ints IsCount)
open Tally (total sumOver bestOf after Best)

/-! ### What kinds of summaries give -/

namespace SummaryKind

/-- The values that a kind of summary takes in any order: integers and nulls if they are added up,
exact ones if they are compared. -/
def Takes : SummaryKind → Value → Prop
  | sum, v | avg, v => IsCount v
  | min, v | max, v => v.isExact = true
  | _, _ => True

/-- What a kind of summary gives over values. -/
inductive Of (values : List Value) : SummaryKind → Value → Prop where
  /-- the number of values, kept within a word -/
  | count : Of values count (.int (Integer.saturate values.length))
  /-- nulls have no sum -/
  | nullSum (nulls : ∀ v ∈ values, v = .null) : Of values sum .null
  /-- the exact sum, if a word holds it -/
  | wordSum {i : Int64} (some : ∃ v ∈ values, v ≠ .null) (exact : i.toInt = total values) :
    Of values sum (.int i)
  /-- the double of the exact sum, if no word holds it -/
  | wideSum (some : ∃ v ∈ values, v ≠ .null) (wide : ¬ Integer.Fits (total values)) :
    Of values sum (.float (Binary64.ofInt (total values)))
  /-- the exact sum over the number of values that are not null -/
  | avg : Of values avg (Sum.averageOfInt (total values) (values.countP (!·.isNull)))
  /-- a value that no other is below -/
  | min {v : Value} (best : Best .lt values v) : Of values min v
  /-- a value that no other is above -/
  | max {v : Value} (best : Best .gt values v) : Of values max v

end SummaryKind

section Values

variable {values values' counts counts' : List Value} {kind : SummaryKind}

/-- Among counts, those that are not null are integers. -/
theorem Value.length_ints (h : ∀ v ∈ values, IsCount v) :
    (ints values).length = values.countP (!·.isNull) := by
  induction values with
  | nil => rfl
  | cons v vs ih =>
    obtain ⟨hv, hvs⟩ := List.forall_mem_cons.1 h
    rcases hv with rfl | ⟨i, rfl⟩
    · exact ih hvs
    · rw [List.countP_cons_of_pos rfl, ← ih hvs]
      rfl

theorem Value.isEmpty_ints (h : ∀ v ∈ values, IsCount v) :
    (ints values).isEmpty = true ↔ ∀ v ∈ values, v = .null := by
  rw [List.isEmpty_iff_length_eq_zero, length_ints h, List.countP_eq_zero]
  simp only [Bool.not_eq_true', Bool.not_eq_false, Value.isNull_iff]

/-- The sum of counts is a sum of the values. -/
theorem SummaryKind.of_sumOver (h : ∀ v ∈ values, IsCount v) : Of values sum (sumOver values) := by
  rw [sumOver]
  split
  next nulls => exact .nullSum ((Value.isEmpty_ints h).1 nulls)
  next some =>
    have some : ∃ v ∈ values, v ≠ .null := by simpa [Value.isEmpty_ints h] using some
    rw [Sum.ofInt, Integer.narrow?]
    by_cases fits : Integer.Fits (total values)
    · rw [if_pos fits]
      exact .wordSum some (Integer.toInt_ofInt_of_fits fits)
    · rw [if_neg fits]
      exact .wideSum some fits

/-- A tally of values that its kind takes comes to what the kind gives over them. -/
theorem SummaryKind.of_finish (here : kind ≠ .remoteCount ∧ kind ≠ .remoteAvg)
    (takes : ∀ v ∈ values, kind.Takes v) : kind.Of values (after kind values counts).finish := by
  cases kind with
  | sum =>
    rw [Tally.finish_after_sum]
    exact of_sumOver takes
  | count => exact .count
  | avg =>
    rw [Tally.finish_after_avg, Value.length_ints takes]
    exact .avg
  | min => exact .min (Tally.best_bestOf (.inl rfl) takes)
  | max => exact .max (Tally.best_bestOf (.inr rfl) takes)
  | remoteCount => exact absurd rfl here.1
  | remoteAvg => exact absurd rfl here.2

/-- In another order the values come to the same. -/
theorem Tally.finish_after_perm (here : kind ≠ .remoteCount ∧ kind ≠ .remoteAvg)
    (takes : ∀ v ∈ values, kind.Takes v) (perm : values'.Perm values) :
    (after kind values' counts').finish = (after kind values counts).finish := by
  cases kind with
  | sum => rw [finish_after_sum, finish_after_sum, sumOver_perm perm]
  | count => simp only [after, finish, perm.length_eq]
  | avg =>
    have number : (ints values').length = (ints values).length :=
      (perm.filterMap Value.asInt?).length_eq
    rw [finish_after_avg, finish_after_avg, total_perm perm, number]
  | min => exact bestOf_perm (.inl rfl) takes perm
  | max => exact bestOf_perm (.inr rfl) takes perm
  | remoteCount => exact absurd rfl here.1
  | remoteAvg => exact absurd rfl here.2

/-! ### The words of tallies -/

/-- An integer of 128 bits. -/
def Integer.FitsWide (n : Int) : Prop := -2 ^ 127 ≤ n ∧ n < 2 ^ 127

/-- The exact sum of integers is one of 128 bits. -/
def RunningSum.Held : RunningSum → Prop
  | int sum => Integer.FitsWide sum
  | empty | float _ | span _ => True

/-- The sum of a tally is held by 128 bits, and its number of rows or values by 64. -/
def Tally.Held : Tally → Prop
  | sum total _ | remoteAvg total _ => total.Held
  | count n => n < 2 ^ 64
  | avg total n => total.Held ∧ n < 2 ^ 64
  | min _ | max _ | remoteCount _ => True

/-- No integer of a word is larger than the least one. -/
theorem Integer.natAbs_sum_le (is : List Int64) :
    (is.map Int64.toInt).sum.natAbs ≤ is.length * 2 ^ 63 := by
  induction is with
  | nil => rfl
  | cons i is ih =>
    have here := Integer.fits_toInt i
    simp only [Integer.Fits, Integer.least, Integer.greatest] at here
    rw [List.map_cons, List.sum_cons, List.length_cons]
    omega

/-- Fewer than `2 ^ 64` words have a sum of 128 bits. -/
theorem RunningSum.held_ofInts {is : List Int64} (h : is.length < 2 ^ 64) :
    (ofInts is).Held := by
  cases is with
  | nil => trivial
  | cons i is =>
    have bound := Integer.natAbs_sum_le (i :: is)
    exact ⟨by omega, by omega⟩

/-- Fewer than 2 ^ 64 values overflow nothing. -/
theorem Tally.held_after (short : values.length < 2 ^ 64) : (after kind values counts).Held := by
  have fewer : (ints values).length < 2 ^ 64 :=
    Nat.lt_of_le_of_lt (List.length_filterMap_le _ _) short
  cases kind with
  | sum | remoteAvg => exact RunningSum.held_ofInts fewer
  | count => exact short
  | avg => exact ⟨RunningSum.held_ofInts fewer, fewer⟩
  | min | max | remoteCount => trivial

end Values

/-! ### Summaries of records -/

variable {shape : Shape} {guardNulls : Bool} {s : Summary} {records records' : List Value}

namespace Summary

/-- What a summary reads of a record; a count reads a null. -/
def Reads (shape : Shape) (guardNulls : Bool) (s : Summary) (record v : Value) : Prop :=
  ∃ a?, s.resolved shape guardNulls = .ok a?
    ∧ Tally.readOptional Rollup.readRecord record (a?.map .accessor) = .ok v

/-- A summary that takes records in any order. -/
structure Orderless (shape : Shape) (guardNulls : Bool) (records : List Value) (s : Summary) :
    Prop where
  /-- its kind is not one for plans -/
  here : s.kind ≠ .remoteCount ∧ s.kind ≠ .remoteAvg
  /-- of every record it reads a value that its kind takes -/
  takes : ∀ r ∈ records, ∃ v, s.Reads shape guardNulls r v ∧ s.kind.Takes v

/-- A value of a summary over records. -/
def Over (shape : Shape) (guardNulls : Bool) (records : List Value) (s : Summary) (v : Value) :
    Prop :=
  ∃ values, List.Forall₂ (s.Reads shape guardNulls) records values ∧ s.kind.Of values v

end Summary

namespace Rollup

open Tally (valueIn tallied Steady)

section OneMeasure

variable {a? : Option Accessor} (orderless : s.Orderless shape guardNulls records)
  (resolved : s.resolved shape guardNulls = .ok a?)

include orderless resolved

/-- The measure of a summary reads what the summary reads. -/
theorem reads_of_orderless {r : Value} (hr : r ∈ records) :
    Tally.readOptional readRecord r (recordMeasure s a?).field
        = .ok (valueIn readRecord (recordMeasure s a?).field r)
      ∧ s.kind.Takes (valueIn readRecord (recordMeasure s a?).field r) := by
  obtain ⟨v, ⟨b?, hb, hv⟩, takes⟩ := orderless.takes r hr
  cases resolved.symm.trans hb
  have read : Tally.readOptional readRecord r (recordMeasure s a?).field = .ok v := hv
  have value : valueIn readRecord (recordMeasure s a?).field r = v := by
    rw [valueIn, read]
    rfl
  exact ⟨by rw [value, read], by rwa [value]⟩

/-- The measure of a summary that does not hang on the order can be folded over the records. -/
theorem steady_of_orderless : Steady readRecord (· ∈ records) (recordMeasure s a?) := by
  refine ⟨fun r hr => ⟨_, (reads_of_orderless orderless resolved hr).1⟩, fun r _ => ⟨.null, rfl⟩,
    fun adds r hr => ?_, fun _ _ _ => .inl rfl⟩
  have takes := (reads_of_orderless orderless resolved hr).2
  have kind : (recordMeasure s a?).kind = s.kind := rfl
  rw [kind] at adds
  cases hkind : s.kind with
  | sum | avg => rwa [hkind] at takes
  | count | min | max =>
    rw [hkind] at adds
    cases adds
  | remoteCount => exact absurd hkind orderless.here.1
  | remoteAvg => exact absurd hkind orderless.here.2

theorem takes_of_orderless :
    ∀ v ∈ records.map (valueIn readRecord (recordMeasure s a?).field), s.kind.Takes v := by
  intro v hv
  obtain ⟨r, hr, rfl⟩ := List.mem_map.1 hv
  exact (reads_of_orderless orderless resolved hr).2

/-- The tally of all records gives the value of the summary over them. -/
theorem over_finish :
    s.Over shape guardNulls records (tallied readRecord (recordMeasure s a?) records).finish := by
  refine ⟨_, ?_, SummaryKind.of_finish orderless.here (takes_of_orderless orderless resolved)⟩
  rw [List.forall₂_map_right_iff, List.forall₂_same]
  exact fun r hr => ⟨a?, resolved, (reads_of_orderless orderless resolved hr).1⟩

/-- It gives the same over them in another order. -/
theorem finish_perm (perm : records'.Perm records) :
    (tallied readRecord (recordMeasure s a?) records').finish
      = (tallied readRecord (recordMeasure s a?) records).finish :=
  Tally.finish_after_perm orderless.here (takes_of_orderless orderless resolved) (perm.map _)

end OneMeasure

/-- A measure is that of a summary that takes records in any order. -/
def Follows (shape : Shape) (guardNulls : Bool) (records : List Value) (s : Summary)
    (m : Measure) : Prop :=
  s.Orderless shape guardNulls records
    ∧ ∃ a?, s.resolved shape guardNulls = .ok a? ∧ m = recordMeasure s a?

section AllMeasures

variable {ss : List Summary} {ms : List Measure}

theorem exists_follows (h : List.Forall₂ (Follows shape guardNulls records) ss ms) :
    ∀ m ∈ ms, ∃ s, Follows shape guardNulls records s m := by
  induction h with
  | nil => exact fun m hm => absurd hm List.not_mem_nil
  | cons hsm _ ih => exact List.forall_mem_cons.2 ⟨⟨_, hsm⟩, ih⟩

variable (follow : ∀ m ∈ ms, ∃ s, Follows shape guardNulls records s m)
  (perm : records'.Perm records)

include follow

/-- The tallies over some of the records. -/
theorem tallied_of_follows {part : List Value} (sub : ∀ r ∈ part, r ∈ records) :
    Measure.Tallied readRecord ms part (ms.map (tallied readRecord · part)) := by
  refine tallied_of_tallies (P := (· ∈ records)) (fun m hm => ?_) sub
  obtain ⟨s, orderless, a?, resolved, rfl⟩ := follow m hm
  exact (steady_of_orderless orderless resolved).tallies

include perm

theorem finish_map_perm :
    ms.map (fun m => (tallied readRecord m records').finish)
      = ms.map fun m => (tallied readRecord m records).finish := by
  refine List.map_congr_left fun m hm => ?_
  obtain ⟨s, orderless, a?, resolved, rfl⟩ := follow m hm
  exact finish_perm orderless resolved perm

end AllMeasures

variable {total group : List Summary} {r : Rollup}

/-- The measures of a rollup follow the summaries. -/
theorem follows_of_rollupOf (hr : rollupOf shape guardNulls total group = .ok r)
    (orderless : ∀ s ∈ total, s.Orderless shape guardNulls records) :
    List.Forall₂ (Follows shape guardNulls records) total r.total := by
  refine (List.forall₂_and_left total r.total).2 ⟨orderless, ?_⟩
  refine (Outcome.mapM_eq_ok.1 (rollupOf_eq_ok.1 hr).1).imp fun s m hm => ?_
  obtain ⟨a?, ha, rfl⟩ := Outcome.map_eq_ok.1 hm
  exact ⟨a?, ha, rfl⟩

/-- The totals over fewer than 2 ^ 64 records, of which the summaries read values that their kinds
take, are the same in every order of the records, and what the kinds give over these values. While
the records are folded in, the exact sums stay within 128 bits and the numbers within 64. -/
theorem run_reordered {σ : Resolver} (serves : σ.Serves shape guardNulls)
    (hr : ((overRecords total group).run.run σ).1 = .ok r) (short : records.length < 2 ^ 64)
    (orderless : ∀ s ∈ total, s.Orderless shape guardNulls records) :
    ∃ totals, List.Forall₂ (Summary.Over shape guardNulls records) total totals
      ∧ ∀ records', records'.Perm records →
        r.run readRecord (.rows records')
            = .ok (.rows records', if r.total.isEmpty then none else some totals)
          ∧ ∀ before after, records' = before ++ after →
            ∃ o, before.foldlM (enterRow readRecord r) ⟨fresh r.total, []⟩ = .ok o
              ∧ ∀ t ∈ o.totals, t.Held := by
  rw [(computes_overRecords total group).run_eq serves] at hr
  have follows := follows_of_rollupOf hr orderless
  have follow := exists_follows follows
  refine ⟨r.total.map fun m => (tallied readRecord m records).finish, ?_, fun records' perm => ?_⟩
  · rw [List.forall₂_map_right_iff]
    refine follows.imp fun s m hsm => ?_
    obtain ⟨orderless, a?, resolved, rfl⟩ := hsm
    exact over_finish orderless resolved
  · have sub : ∀ r ∈ records', r ∈ records := fun r hr => perm.mem_iff.1 hr
    refine ⟨?_, ?_⟩
    · have gives := (tallied_of_follows follow sub).gives none
      rw [List.map_map] at gives
      rw [← finish_map_perm follow perm]
      exact run_eq_ok_iff.2 ⟨.rows records', gives⟩
    · rintro before after rfl
      have part : before.length ≤ records.length := by
        rw [← perm.length_eq, List.length_append]
        omega
      have tallies := tallied_of_follows follow fun r hr => sub r (List.mem_append_left after hr)
      have start : Stands readRecord r ([] : List Value) [] ⟨fresh r.total, []⟩ :=
        ⟨Measure.tallied_nil, .nil⟩
      refine ⟨⟨_, []⟩, (foldlM_enterRow_eq_ok start).2 ⟨tallies, .nil⟩, fun t ht => ?_⟩
      obtain ⟨m, -, rfl⟩ := List.mem_map.1 ht
      exact Tally.held_after (by rw [List.length_map]; omega)

/-- Integers whose sum leaves a word on the way and comes back, and a member of any type. -/
theorem run_reordered_beyond :
    let shape : Shape := .mk "Order" [.mk "price" .int64 true, .mk "extra" .dynamic false]
    let total : List Summary := [⟨some "price", .sum⟩, ⟨some "extra", .avg⟩, ⟨some "price", .min⟩,
      ⟨none, .count⟩]
    let record (price extra : Value) : Value := .object [("extra", extra), ("price", price)]
    let records := [record (.int Int64.maxValue) .null, record (.int 5) (.int 3),
      record .null (.int 6), record (.int (-9)) .null]
    ∃ r, ((overRecords total []).run.run (.fresh shape true)).1 = .ok r
      ∧ ∀ records', records'.Perm records → r.run readRecord (.rows records')
        = .ok (.rows records', some [.int (Int64.maxValue - 4), Sum.averageOfInt 9 2, .int (-9),
          .int 4]) := by
  intro shape total record records
  obtain ⟨r, hr⟩ : ∃ r, ((overRecords total []).run.run (.fresh shape true)).1 = .ok r := ⟨_, rfl⟩
  have null : IsCount .null := .inl rfl
  have word (i : Int64) : IsCount (.int i) := .inr ⟨i, rfl⟩
  have orderless : ∀ s ∈ total, s.Orderless shape true records := by
    simp only [total, records, List.forall_mem_cons, List.not_mem_nil, false_imp_iff, implies_true,
      and_true]
    refine ⟨⟨by decide, ?_⟩, ⟨by decide, ?_⟩, ⟨by decide, ?_⟩, ⟨by decide, ?_⟩⟩ <;>
      simp only [List.forall_mem_cons, List.not_mem_nil, false_imp_iff, implies_true, and_true]
    · exact ⟨⟨_, ⟨_, rfl, rfl⟩, word _⟩, ⟨_, ⟨_, rfl, rfl⟩, word _⟩, ⟨_, ⟨_, rfl, rfl⟩, null⟩,
        ⟨_, ⟨_, rfl, rfl⟩, word _⟩⟩
    · exact ⟨⟨_, ⟨_, rfl, rfl⟩, null⟩, ⟨_, ⟨_, rfl, rfl⟩, word _⟩, ⟨_, ⟨_, rfl, rfl⟩, word _⟩,
        ⟨_, ⟨_, rfl, rfl⟩, null⟩⟩
    · exact ⟨⟨_, ⟨_, rfl, rfl⟩, rfl⟩, ⟨_, ⟨_, rfl, rfl⟩, rfl⟩, ⟨_, ⟨_, rfl, rfl⟩, rfl⟩,
        ⟨_, ⟨_, rfl, rfl⟩, rfl⟩⟩
    · exact ⟨⟨_, ⟨_, rfl, rfl⟩, trivial⟩, ⟨_, ⟨_, rfl, rfl⟩, trivial⟩,
        ⟨_, ⟨_, rfl, rfl⟩, trivial⟩, ⟨_, ⟨_, rfl, rfl⟩, trivial⟩⟩
  refine ⟨r, hr, fun records' perm => ?_⟩
  obtain ⟨totals, -, same⟩ := run_reordered Resolver.serves_fresh hr (by decide) orderless
  cases hr
  cases (same records (.refl _)).1
  exact (same records' perm).1

end Rollup

end DataGrid
