import DataGrid.Proofs.Loader.Agreement
import DataGrid.Proofs.Planning.Plain

/-!
# Totals of remote kinds

A client may ask for a remote kind by name. The store then counts and averages as for the plain
kind, but records by themselves have no field of counts: formed of them, a count of rows stays zero
and an average has nothing to share its sum among (`Summary.valueHere`). All else agrees, so that
the totals of a request are the same exactly where there is nothing to count
(`Loader.serve_remoteKinds`).
-/

namespace DataGrid

open Value (ints IsCount)
open Tally (ofLength tallied valueIn Steady)
open Rollup (readRecord recordMeasure Measures)
open Store (Ready)

theorem Value.ints_eq_nil_iff {vs : List Value} (h : ∀ v ∈ vs, IsCount v) :
    ints vs = [] ↔ ∀ v ∈ vs, v = .null := by
  rw [ints, List.filterMap_eq_nil_iff]
  refine forall₂_congr fun v hv => ?_
  rcases h v hv with rfl | ⟨i, rfl⟩ <;> simp [Value.asInt?]

theorem Tally.ofLength_zero_eq_iff {n : Nat} (fits : Integer.Fits (n : Int)) :
    ofLength 0 = ofLength n ↔ n = 0 := by
  constructor
  · intro h
    have same := congrArg Int64.toInt (Value.int.inj h)
    rw [Integer.toInt_ofInt_of_fits fits] at same
    simpa using same.symm
  · rintro rfl
    rfl

theorem Sum.null_eq_averageOfInt_iff {sum : Int} {count : Nat} :
    .null = averageOfInt sum count ↔ count = 0 := by
  rw [averageOfInt]
  split <;> simp_all

theorem RunningSum.divide_zero (sum : RunningSum) : sum.divide 0 = .null := by
  cases sum <;> rfl

namespace Summary

variable {shape : Shape} {s : Summary} {records : List Value}

/-- The value of a summary that is read off the records one by one. A record has no counts: those of
a remote count add up to zero, and a remote average is over none. -/
def valueHere (shape : Shape) (s : Summary) (records : List Value) : Value :=
  match s.kind with
  | .remoteCount => ofLength 0
  | .remoteAvg => .null
  | _ => s.valueOver shape records

/-- Only sums are filled in, and these are the same by both rules. -/
theorem filled_valueHere_eq_iff :
    SumZeros.filled shape true s (s.valueHere shape records)
        = SumZeros.filled shape true s (s.valueOver shape records)
      ↔ s.valueHere shape records = s.valueOver shape records := by
  obtain ⟨selector, kind⟩ := s
  cases kind with
  | remoteCount | remoteAvg => rfl
  | _ => simp [valueHere]

/-- The two values are the same where there is nothing to count. -/
theorem valueHere_eq_iff (integers : s.OverIntegers shape) (sound : Sound shape records) :
    s.valueHere shape records = s.valueOver shape records
      ↔ (s.kind = .remoteCount → records = [])
        ∧ (s.kind = .remoteAvg → ∀ r ∈ records, shape.valueAt s.path r = .null) := by
  obtain ⟨selector, kind⟩ := s
  cases kind with
  | remoteCount =>
    simp only [valueHere, valueOver, Tally.ofLength_zero_eq_iff sound.length,
      List.length_eq_zero_iff]
    simp
  | remoteAvg =>
    have counts := Shape.int_valuesAt (integers rfl) sound.conform
    simp only [valueHere, valueOver, Sum.null_eq_averageOfInt_iff, List.length_eq_zero_iff,
      Value.ints_eq_nil_iff counts, List.forall_mem_map]
    simp
  | _ => simp [valueHere]

end Summary

namespace Rollup

variable {shape : Shape} {s : Summary} {a? : Option Accessor} {records : List Value}

/-- Counts and summaries of integers can be folded over records that conform, whatever their
kind. -/
theorem steady_ofIntegers (integers : s.OverIntegers shape)
    (resolved : s.resolved shape true = .ok a?) :
    Steady readRecord (fun r => shape.conforms r = true) (recordMeasure s a?) := by
  have plain := steady_recordMeasure integers.splits (Summary.resolved_plain.2 resolved)
  refine ⟨plain.field, plain.countField, fun adds r hr => ?_, fun _ _ _ => .inl rfl⟩
  rcases Summary.resolved_eq_ok resolved with ⟨-, rfl⟩ | ⟨reads, -⟩
  · exact .inl rfl
  · -- of the kinds that add up, those that read do so with the plain kind too
    refine plain.values ?_ r hr
    obtain ⟨selector, kind⟩ := s
    cases kind with
    | sum | avg | remoteAvg => rfl
    | min | max => cases adds
    | count | remoteCount => cases reads

/-- No counts are read off records. -/
theorem ints_valueIn_none : ints (records.map (valueIn readRecord none)) = [] := by
  rw [ints, List.filterMap_map, List.filterMap_eq_nil_iff]
  exact fun _ _ => rfl

/-- Their tallies come out at these values. -/
theorem finish_ofIntegers (integers : s.OverIntegers shape)
    (resolved : s.resolved shape true = .ok a?) (sound : Sound shape records) :
    (tallied readRecord (recordMeasure s a?) records).finish = s.valueHere shape records := by
  obtain ⟨selector, kind⟩ := s
  cases kind with
  | remoteCount =>
    obtain ⟨-, rfl⟩ | ⟨reads, -⟩ := Summary.resolved_eq_ok resolved
    · have field : (recordMeasure ⟨selector, .remoteCount⟩ none).field = none := rfl
      have kind : (recordMeasure ⟨selector, .remoteCount⟩ none).kind = .remoteCount := rfl
      rw [tallied, field, kind, Tally.after, ints_valueIn_none]
      rfl
    · cases reads
  | remoteAvg =>
    have counts : (recordMeasure ⟨selector, .remoteAvg⟩ a?).countField = none := rfl
    have kind : (recordMeasure ⟨selector, .remoteAvg⟩ a?).kind = .remoteAvg := rfl
    rw [tallied, counts, kind, Tally.after, ints_valueIn_none]
    exact RunningSum.divide_zero _
  | _ => exact finish_recordMeasure integers.splits resolved sound

/-- The totals of records. -/
theorem run_ofIntegers {ss : List Summary} {ms : List Measure}
    (h : List.Forall₂ (Measures shape) ss ms) (integers : ∀ s ∈ ss, s.OverIntegers shape)
    (sound : Sound shape records) :
    Rollup.run readRecord ⟨ms, []⟩ (.rows records)
      = .ok (.rows records,
          if ss.isEmpty then none else some (ss.map (·.valueHere shape records))) := by
  have all : (∀ m ∈ ms, Steady readRecord (fun r => shape.conforms r = true) m)
      ∧ ms.map (fun m => (tallied readRecord m records).finish)
        = ss.map (·.valueHere shape records) := by
    induction h with
    | nil => exact ⟨fun m hm => absurd hm List.not_mem_nil, rfl⟩
    | cons hsm _ ih =>
      obtain ⟨a?, resolved, rfl⟩ := hsm
      obtain ⟨hs, hss⟩ := List.forall_mem_cons.1 integers
      obtain ⟨steady, values⟩ := ih hss
      refine ⟨List.forall_mem_cons.2 ⟨steady_ofIntegers hs resolved, steady⟩, ?_⟩
      rw [List.map_cons, List.map_cons, finish_ofIntegers hs resolved sound, values]
  have known : Known readRecord (fun r => shape.conforms r = true) (tallied readRecord) ⟨ms, []⟩ :=
    ⟨fun m hm => (all.1 m hm).tallies, fun m hm => absurd hm List.not_mem_nil⟩
  rw [run_eq known (t := .rows records) sound.conform, Outcome.isEmpty_of_forall₂ h, ← all.2]
  rfl

end Rollup

/-- Values that are computed one by one are filled in one by one. -/
theorem SumZeros.filledAll_map {shape : Shape} {guardNulls : Bool} (value : Summary → Value)
    (ss : List Summary) :
    filledAll shape guardNulls ss (ss.map value)
      = ss.map fun s => filled shape guardNulls s (value s) := by
  induction ss with
  | nil => rfl
  | cons s ss ih => rw [List.map_cons, filledAll, ih]; rfl

/-- The totals of a request, given the value of each summary, with zeros in place of null sums; none
if none are asked for. -/
def LoadRequest.totals (o : LoadRequest) (shape : Shape) (value : Summary → Value) :
    Option (List Value) :=
  if o.totalSummary.isEmpty then none
  else some (o.totalSummary.map fun s => SumZeros.filled shape true s (value s))

theorem LoadRequest.totals_eq_iff {o : LoadRequest} {shape : Shape}
    {value value' : Summary → Value} :
    o.totals shape value = o.totals shape value' ↔ ∀ s ∈ o.totalSummary,
      SumZeros.filled shape true s (value s) = SumZeros.filled shape true s (value' s) := by
  rw [totals, totals]
  split
  next none => simp [List.isEmpty_iff.1 none]
  next => rw [Option.some_inj, List.map_inj_left]

/-- The answer with totals. -/
def LoadAnswer.withTotals (totals : Option (List Value)) (r : LoadAnswer) : LoadAnswer :=
  { r with summary := totals }

namespace Loader

variable {store : Store} {config : LoaderSettings} {o : LoadRequest} {registry : Option Registry}
variable {predicate : Predicate} {records : List Value} {s : Settings}

theorem measures_of_resolve {shape : Shape} {ss : List Summary}
    (h : SumZeros.Resolve shape true ss) :
    ∃ ms, Rollup.measures shape true ss = .ok ms :=
  Outcome.exists_mapM_eq_ok fun s hs => by
    obtain ⟨a?, resolved⟩ := h s hs
    exact ⟨_, Outcome.map_eq_ok.2 ⟨a?, resolved, rfl⟩⟩

/-- Totals that are formed of the records. -/
theorem totalsOf_here (guards : s.guardNulls = true)
    (hselect : Store.select predicate store.records = .ok records)
    (sound : Sound store.shape records)
    (integers : ∀ s ∈ o.totalSummary, s.OverIntegers store.shape)
    (resolve : SumZeros.Resolve store.shape true o.totalSummary) :
    totalsOf store o predicate s false
      = .ok (o.totals store.shape (·.valueHere store.shape records)) := by
  rw [totalsOf, LoadRequest.totals]
  split
  · rfl
  next some =>
    obtain ⟨ms, hms⟩ := measures_of_resolve resolve
    have loaded : store.load false (.all predicate) = .ok records :=
      Store.load_eq_ok.2 ⟨records, ⟨[]⟩, records, hselect, rfl, rfl, rfl⟩
    have rollup : Rollup.rollupOf store.shape true o.totalSummary [] = .ok ⟨ms, []⟩ :=
      Rollup.rollupOf_eq_ok.2 ⟨hms, rfl⟩
    have run := Rollup.run_ofIntegers (Rollup.measures_eq_ok hms) integers sound
    have here : summarized store.shape true o.totalSummary [] [] (fun _ => .ok (.rows records))
        = _ := summarized_of_ok rfl rfl rollup run
    simp only [loaded, guards, here, some, Except.mapError, bind, Except.bind, Option.map_some,
      Option.getD_some, Bool.false_eq_true, if_false]
    exact congrArg (Except.ok ∘ Option.some) (SumZeros.filledAll_map _ _)

/-- Totals that the store computes. -/
theorem totalsOf_there (guards : s.guardNulls = true)
    (hselect : Store.select predicate store.records = .ok records)
    (sound : Sound store.shape records)
    (integers : ∀ s ∈ o.totalSummary, s.OverIntegers store.shape)
    (resolve : SumZeros.Resolve store.shape true o.totalSummary)
    (fits : ∀ s ∈ o.totalSummary, s.plain.SumFits store.shape records) :
    totalsOf store o predicate s true
      = .ok (o.totals store.shape (·.valueOver store.shape records)) := by
  rw [totalsOf, LoadRequest.totals]
  split
  · rfl
  next some =>
    -- the store works as for the plain kinds, and these split
    have ready : Ready store.shape (o.totalSummary.map Summary.plain) :=
      ⟨List.forall_mem_map.2 fun s hs => (integers s hs).splits,
        SumZeros.resolve_plain.2 resolve⟩
    have nothing : Ready store.shape [] := ⟨by simp, by simp [SumZeros.Resolve]⟩
    have result := regrouped_records ready sound (List.forall_mem_map.2 fits)
    have grouped := grouped_of_ok guards hselect sound.conform ⟨[], rfl⟩
      (fun g hg => absurd hg List.not_mem_nil) ready nothing result
    have same := grouped_plain (guards ▸ resolve) (guards ▸ nothing.2) predicate []
    rw [List.map_nil, grouped] at same
    simp only [if_true, ← same, bind, Except.bind]
    rw [Summary.overAll, List.isEmpty_map, if_neg some, SumZeros.filledAll_plain, List.map_map]
    simp only [Function.comp_def, Summary.valueOver_plain]
    exact congrArg (Except.ok ∘ Option.some) (SumZeros.filledAll_map _ _)

/-- A page of records is that of the request without totals, with the totals. -/
theorem recordPageOf_of_totals {remote : Bool} (remote' : Bool) {totals : Option (List Value)}
    (h : totalsOf store o predicate s remote = .ok totals) :
    recordPageOf store config o predicate s remote
      = (recordPageOf store config { o with totalSummary := [] } predicate s remote').map
          (·.withTotals totals) := by
  have none : totalsOf store { o with totalSummary := [] } predicate s remote' = .ok none := rfl
  rw [recordPageOf, recordPageOf, h, none]
  have loaded : store.load false ⟨predicate, o.sort, o.skip,
      LoadRequest.pageSize { o with totalSummary := [] } config.maxTake⟩
        = store.load false ⟨predicate, o.sort, o.skip, o.pageSize config.maxTake⟩ := rfl
  have counted (data : List Value) : totalCountOf store { o with totalSummary := [] } predicate
      (LoadRequest.pageSize { o with totalSummary := [] } config.maxTake) data
        = totalCountOf store o predicate (o.pageSize config.maxTake) data := rfl
  simp only [loaded, counted, bind, Except.bind]
  cases (store.load false ⟨predicate, o.sort, o.skip, o.pageSize config.maxTake⟩).mapError
    LoadFailure.backend with
  | error e => rfl
  | ok data =>
    dsimp only
    cases totalCountOf store o predicate (o.pageSize config.maxTake) data <;> rfl

/-- The records that match depend on the criteria of a request, and not on what is computed of
them. -/
theorem serve_of_matching (found : matching store config o registry = .ok records) :
    ∃ predicate, Store.select predicate store.records = .ok records
      ∧ ∀ total remote,
        ((overStore store config).serve
            { o with totalSummary := total, remoteGrouping := remote } false registry).1
          = answer store config { o with totalSummary := total, remoteGrouping := remote }
              predicate := by
  obtain ⟨predicate, hpredicate, hselected⟩ := Outcome.bind_eq_ok.1 found
  refine ⟨predicate, Store.selected_eq_ok.1 (Outcome.mapError_eq_ok.1 hselected),
    fun total remote => ?_⟩
  rw [serve_eq]
  exact congrArg (· >>= answer store config _) hpredicate

/-- A page of records with totals of integers, of any kind. It is the page without totals, and to it
come the values of the summaries over all records that match if the store computes them (their
number for a remote count, their average for a remote average), and those read off the records
otherwise. These are the same exactly if remote counts are over no records and remote averages over
nulls. -/
theorem serve_remoteKinds (sound : Sound store.shape store.records)
    (page : o.isCountQuery = false) (ungrouped : o.group = [])
    (integers : ∀ s ∈ o.totalSummary, s.OverIntegers store.shape)
    (resolve : SumZeros.Resolve store.shape true o.totalSummary)
    (found : matching store config o registry = .ok records)
    (fits : ∀ s ∈ o.totalSummary, s.plain.SumFits store.shape records) :
    let served (o : LoadRequest) := ((overStore store config).serve o false registry).1
    let here := o.totals store.shape (·.valueHere store.shape records)
    let there := o.totals store.shape (·.valueOver store.shape records)
    served { o with remoteGrouping := some false }
        = (served { o with totalSummary := [] }).map (·.withTotals here)
      ∧ served { o with remoteGrouping := some true }
        = (served { o with totalSummary := [] }).map (·.withTotals there)
      ∧ (here = there ↔ ∀ s ∈ o.totalSummary, (s.kind = .remoteCount → records = [])
          ∧ (s.kind = .remoteAvg → ∀ r ∈ records, store.shape.valueAt s.path r = .null)) := by
  intro served here there
  obtain ⟨predicate, hselect, answers⟩ := serve_of_matching found
  have sound := sound.sublist (Store.sublist_of_select hselect)
  have guards : ((overStore store config).settings o).guardNulls = true := rfl
  have paged (total : List Summary) (remote : Option Bool) :
      served { o with totalSummary := total, remoteGrouping := remote }
        = recordPageOf store config { o with totalSummary := total } predicate
            ((overStore store config).settings o)
            ((overStore store config).leavesGrouping { o with remoteGrouping := remote }) := by
    refine (answers total remote).trans ?_
    rw [answer]
    simp only [page, LoadRequest.isGrouped, ungrouped]
    rfl
  rw [paged o.totalSummary, paged o.totalSummary, show served { o with totalSummary := [] } = _ from
    paged [] o.remoteGrouping]
  refine ⟨recordPageOf_of_totals _ (totalsOf_here guards hselect sound integers resolve),
    recordPageOf_of_totals _ (totalsOf_there guards hselect sound integers resolve fits), ?_⟩
  show o.totals _ _ = o.totals _ _ ↔ _
  rw [LoadRequest.totals_eq_iff]
  exact forall₂_congr fun s hs =>
    Summary.filled_valueHere_eq_iff.trans (Summary.valueHere_eq_iff (integers s hs) sound)

/-- Visits of which two of three match, and totals of all kinds, of remote ones too. -/
theorem serve_remoteKinds_visits :
    let shape : Shape := .mk "Visit" [.plain "size" .int32, .mk "paid" .int64 true]
    let visit (size : Int64) (paid : Value) :=
      Value.object [("size", .int size), ("paid", paid)]
    let store : Store := ⟨shape, [visit 3 .null, visit 1 (.int 7), visit 4 .null]⟩
    let o : LoadRequest := { LoadRequest.everything with
      filter := some (.array [.string "size", .string ">", .int 2])
      totalSummary := [⟨none, .remoteCount⟩, ⟨some "size", .remoteAvg⟩, ⟨some "paid", .remoteAvg⟩,
        ⟨some "paid", .sum⟩, ⟨some "size", .max⟩, .rows] }
    let served (o : LoadRequest) := ((overStore store .standard).serve o false none).1
    served { o with remoteGrouping := some false }
        = (served { o with totalSummary := [] }).map
            (·.withTotals (some [.int 0, .null, .null, .int 0, .int 4, .int 2]))
      ∧ served { o with remoteGrouping := some true }
        = (served { o with totalSummary := [] }).map (·.withTotals
            (some [.int 2, Sum.averageOfInt 7 2, .null, .int 0, .int 4, .int 2]))
      ∧ (served { o with totalSummary := [] }).toOption.isSome = true := by
  intro shape visit store o served
  have sound : Sound store.shape store.records := ⟨by decide +kernel, by decide +kernel⟩
  have found : matching store .standard o none = .ok [visit 3 .null, visit 4 .null] := rfl
  have resolve : SumZeros.Resolve store.shape true o.totalSummary := by
    simp only [SumZeros.Resolve, o, List.forall_mem_cons]
    exact ⟨⟨_, rfl⟩, ⟨_, rfl⟩, ⟨_, rfl⟩, ⟨_, rfl⟩, ⟨_, rfl⟩, ⟨_, rfl⟩, by simp⟩
  have integers : ∀ s ∈ o.totalSummary, s.OverIntegers store.shape := by decide +kernel
  have fits : ∀ s ∈ o.totalSummary,
      s.plain.SumFits store.shape [visit 3 .null, visit 4 .null] := by decide +kernel
  have here : o.totals store.shape (·.valueHere store.shape [visit 3 .null, visit 4 .null])
      = some [.int 0, .null, .null, .int 0, .int 4, .int 2] := rfl
  have there : o.totals store.shape (·.valueOver store.shape [visit 3 .null, visit 4 .null])
      = some [.int 2, Sum.averageOfInt 7 2, .null, .int 0, .int 4, .int 2] := rfl
  have page : o.isCountQuery = false := rfl
  have ungrouped : o.group = [] := rfl
  have answered : (served { o with totalSummary := [] }).toOption.isSome = true := by
    decide +kernel
  clear_value store o
  obtain ⟨totalsHere, totalsThere, -⟩ :=
    serve_remoteKinds sound page ungrouped integers resolve found fits
  rw [here] at totalsHere
  rw [there] at totalsThere
  exact ⟨totalsHere, totalsThere, answered⟩

/-- Of two visits, the remote kinds count none here and average nothing. -/
theorem remoteKinds_differ :
    let visit (size : Int64) := Value.object [("size", .int size)]
    let store : Store := ⟨.mk "Visit" [.plain "size" .int32], [visit 3, visit 4]⟩
    let totals (remote : Bool) := ((overStore store .standard).serve
      { LoadRequest.everything with
        totalSummary := [⟨none, .remoteCount⟩, ⟨some "size", .remoteAvg⟩]
        remoteGrouping := some remote } false none).1.map (·.summary)
    totals false = .ok (some [.int 0, .null])
      ∧ totals true = .ok (some [.int 2, .float ⟨0x400C000000000000⟩]) :=
  ⟨rfl, by with_unfolding_all rfl⟩

end Loader

end DataGrid
