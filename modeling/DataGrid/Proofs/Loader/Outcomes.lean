import DataGrid.Loader
import DataGrid.Proofs.SumZeros

/-!
# What a loader over a store computes

A loader keeps a state while it works: what its resolver remembers, the calls it made, whether it is
cancelled. Over a store nothing of this shows in the answer. The functions here say what the parts
of a request give, as functions of the records alone; `Loader.computes_load` puts them together for
a request whose criteria are compiled.
-/

namespace DataGrid

open Resolver

/-! ### Trees, totals and summaries -/

namespace Loader

/-- The tree and the totals of records in process. -/
def summarized (shape : Shape) (guardNulls : Bool) (total group : List Summary)
    (keys : List String) (build : List Accessor → Except ReadError (Subtree Value)) :
    Except RequestError (Subtree Value × Option (List Value)) := do
  let accessors ← (keys.mapM (Accessor.ofPath shape guardNulls)).mapError .compile
  let data ← (build accessors).mapError .read
  let rollup ← (Rollup.rollupOf shape guardNulls total group).mapError .compile
  let (data, totals) ← (rollup.run Rollup.readRecord data).mapError .read
  return (data.resum (Option.map (SumZeros.filledAll shape guardNulls group)),
    totals.map (SumZeros.filledAll shape guardNulls total))

/-- Summaries that have measures have selectors that resolve. -/
theorem resolve_of_measures {shape : Shape} {guardNulls : Bool} {ss : List Summary}
    {ms : List Measure} (h : Rollup.measures shape guardNulls ss = .ok ms) :
    SumZeros.Resolve shape guardNulls ss := by
  intro s hs
  obtain ⟨m, -, hm⟩ := Outcome.exists_of_mapM_eq_ok h hs
  obtain ⟨a?, ha, -⟩ := Outcome.map_eq_ok.1 hm
  exact ⟨a?, ha⟩

/-- What a request summarizes does not depend on what the resolver remembers. -/
theorem summarize_eq {ε : Type} (l : Loader ε) (s : Settings) (total group : List Summary)
    (keys : List String) (build : List Accessor → Except ReadError (Subtree Value)) :
    l.summarize s total group keys build
      = summarized l.backend.shape s.guardNulls total group keys build := by
  refine Computes.run_eq ?_ serves_fresh
  refine (Requesting.computes_compiling (.mapM fun path _ => computes_resolve path)).bind
    fun accessors _ => ?_
  refine (Requesting.computes_reading (build accessors)).bind fun data _ => ?_
  refine (Requesting.computes_compiling (Rollup.computes_overRecords total group)).bind
    fun rollup hrollup => ?_
  refine (Requesting.computes_reading _).bind fun result _ => ?_
  obtain ⟨htotal, hgroup⟩ := Rollup.rollupOf_eq_ok.1 (Outcome.mapError_eq_ok.1 hrollup)
  exact Requesting.computes_zeroSums (resolve_of_measures htotal) (resolve_of_measures hgroup) _ _

end Loader

namespace Projection

variable (shape : Shape) (guardNulls : Bool)

/-- The plan of summaries, or that one of them does not resolve. -/
def planned? (levels : Nat) (total group : List Summary) : Except CompileError Projection := do
  let _ ← total.mapM (·.resolved shape guardNulls)
  let _ ← group.mapM (·.resolved shape guardNulls)
  return planOf levels total group

/-- What flat rows are folded into. -/
def regrouped (rows : List Row) (levels : Nat) (total group : List Summary) :
    Except RequestError Regrouped := do
  let plan ← (planned? shape guardNulls levels total group).mapError .compile
  let data ← (treeOf levels rows).mapError .read
  let (data, totals) ← (plan.rollup.run Row.read data).mapError .read
  let (totalCount, totals) ← (takeCount (totals.getD [])).mapError .read
  return ⟨groupsOf? (data.resum (Option.map (SumZeros.filledAll shape guardNulls group))),
    (some (SumZeros.filledAll shape guardNulls total totals)).filter (!·.isEmpty), totalCount⟩

variable {shape guardNulls}

/-- A plan is made exactly if all selectors resolve, and then it is that of the summaries. -/
theorem planned?_eq_ok {levels : Nat} {total group : List Summary} {plan : Projection} :
    planned? shape guardNulls levels total group = .ok plan
      ↔ SumZeros.Resolve shape guardNulls total ∧ SumZeros.Resolve shape guardNulls group
        ∧ planOf levels total group = plan := by
  rw [planned?, Outcome.bind_eq_ok]
  constructor
  · rintro ⟨total', htotal, h⟩
    obtain ⟨group', hgroup, h⟩ := Outcome.bind_eq_ok.1 h
    cases h
    refine ⟨fun s hs => ?_, fun s hs => ?_, rfl⟩
    · obtain ⟨a?, -, h⟩ := Outcome.exists_of_mapM_eq_ok htotal hs
      exact ⟨a?, h⟩
    · obtain ⟨a?, -, h⟩ := Outcome.exists_of_mapM_eq_ok hgroup hs
      exact ⟨a?, h⟩
  · rintro ⟨htotal, hgroup, rfl⟩
    obtain ⟨total', htotal⟩ := Outcome.exists_mapM_eq_ok htotal
    obtain ⟨group', hgroup⟩ := Outcome.exists_mapM_eq_ok hgroup
    exact ⟨total', htotal, Outcome.bind_eq_ok.2 ⟨group', hgroup, rfl⟩⟩

/-- The number of rows is the last of the totals. -/
theorem takeCount_concat (values : List Value) (n : Int64) :
    takeCount (values ++ [.int n]) = .ok (n, values) := by
  rw [takeCount, List.getLast?_concat, List.dropLast_concat]

/-- Rows are folded if they make a tree whose totals end in a count. -/
theorem regrouped_of_run {rows : List Row} {levels : Nat} {total group : List Summary}
    {plan : Projection} {data data' : Subtree Row} {values : List Value} {n : Int64}
    (hplan : planned? shape guardNulls levels total group = .ok plan)
    (hdata : treeOf levels rows = .ok data)
    (run : plan.rollup.run Row.read data = .ok (data', some (values ++ [.int n]))) :
    regrouped shape guardNulls rows levels total group
      = .ok ⟨groupsOf? (data'.resum (Option.map (SumZeros.filledAll shape guardNulls group))),
          (some (SumZeros.filledAll shape guardNulls total values)).filter (!·.isEmpty), n⟩ := by
  simp only [regrouped, hplan, hdata, run, Except.mapError, bind, Except.bind, Option.getD_some,
    takeCount_concat]
  rfl

/-- What is folded comes of a tree of the rows, whose totals end in the number of all rows. -/
theorem regrouped_eq_ok {rows : List Row} {levels : Nat} {total group : List Summary}
    {result : Regrouped} (h : regrouped shape guardNulls rows levels total group = .ok result) :
    SumZeros.Resolve shape guardNulls total ∧ SumZeros.Resolve shape guardNulls group
      ∧ ∃ t t' totals n values, treeOf levels rows = .ok t
        ∧ (planOf levels total group).rollup.run Row.read t = .ok (t', totals)
        ∧ takeCount (totals.getD []) = .ok (n, values)
        ∧ result = ⟨groupsOf? (t'.resum (Option.map (SumZeros.filledAll shape guardNulls group))),
            (some (SumZeros.filledAll shape guardNulls total values)).filter (!·.isEmpty), n⟩ := by
  obtain ⟨plan, hplan, h⟩ := Outcome.bind_eq_ok.1 h
  obtain ⟨t, ht, h⟩ := Outcome.bind_eq_ok.1 h
  obtain ⟨⟨t', totals⟩, run, h⟩ := Outcome.bind_eq_ok.1 h
  obtain ⟨⟨n, values⟩, hcount, h⟩ := Outcome.bind_eq_ok.1 h
  cases h
  rw [Outcome.mapError_eq_ok] at hplan ht run hcount
  obtain ⟨htotal, hgroup, rfl⟩ := planned?_eq_ok.1 hplan
  exact ⟨htotal, hgroup, t, t', totals, n, values, ht, run, hcount, rfl⟩

/-- Flat rows are regrouped the same by every resolver of the shape. -/
theorem computes_regroup (rows : List Row) (levels : Nat) (total group : List Summary) :
    Computes (Serves shape guardNulls) (regroup rows levels total group)
      (regrouped shape guardNulls rows levels total group) := by
  refine (Requesting.computes_compiling (computes_make levels total group)).bind
    fun plan hplan => ?_
  obtain ⟨htotal, hgroup, -⟩ := planned?_eq_ok.1 (Outcome.mapError_eq_ok.1 hplan)
  refine (Requesting.computes_reading _).bind fun data _ => ?_
  refine (Requesting.computes_reading _).bind fun result _ => ?_
  refine (Requesting.computes_reading _).bind fun counted _ => ?_
  exact (Requesting.computes_zeroSums htotal hgroup _ _).bind fun _ _ => .pure _

end Projection

/-- A backend groups by the plan of the request, and its flat rows are folded by the same plan: what
a resolver remembers of the one does not change the other. -/
theorem Loader.backendGrouping_eq {ε : Type} (l : Loader ε) (predicate : Predicate)
    (grouping : List Grouping) (total group : List Summary) (s : Settings) :
    l.backendGrouping predicate grouping total group s = (do
      let plan ← Loading.compiling
        (Projection.planned? l.backend.shape s.guardNulls grouping.length total group)
      let query : ProjectionQuery := ⟨predicate, grouping, plan⟩
      let rows ← Loading.call (.flatGroups query) fun calls => l.backend.project calls query
      let result ← Loading.requesting
        (Projection.regrouped l.backend.shape s.guardNulls rows grouping.length total group)
      return (result, plan.countPosition)) := by
  obtain ⟨hplan, serves⟩ :=
    Projection.computes_make grouping.length total group (l.resolver s) serves_fresh
  rw [backendGrouping]
  generalize (Projection.make grouping.length total group).run.run (l.resolver s) = made
    at hplan serves
  obtain ⟨plan?, resolver⟩ := made
  obtain rfl : plan? = Projection.planned? l.backend.shape s.guardNulls grouping.length total
    group := hplan
  refine bind_congr fun plan => bind_congr fun rows => ?_
  obtain ⟨hresult, -⟩ :=
    Projection.computes_regroup rows grouping.length total group resolver serves
  generalize (Projection.regroup rows grouping.length total group).run.run resolver = folded
    at hresult
  obtain ⟨result?, resolver'⟩ := folded
  obtain rfl : result? = _ := hresult
  rfl

/-! ### Answers from a store -/

namespace Loader

/-- The request goes on. -/
def Running (state : LoadState) : Prop := state.cancelled = false

variable (store : Store) (config : LoaderSettings)

/-- A loader over a store. -/
def overStore : Loader StoreError := ⟨store.backend, config⟩

/-- The groups and the position of the number of rows that come of flat rows of the store. -/
def grouped (predicate : Predicate) (grouping : List Grouping) (total group : List Summary)
    (s : Settings) : Except (LoadFailure StoreError) (Regrouped × Nat) := do
  let plan ← (Projection.planned? store.shape s.guardNulls grouping.length total group).mapError
    .compile
  let rows ← (store.project false ⟨predicate, grouping, plan⟩).mapError .backend
  let result ← (Projection.regrouped store.shape s.guardNulls rows grouping.length total
    group).mapError .ofRequest
  return (result, plan.countPosition)

/-- The totals over all matching records. -/
def totalsOf (o : LoadRequest) (predicate : Predicate) (s : Settings) (remote : Bool) :
    Except (LoadFailure StoreError) (Option (List Value)) :=
  if o.totalSummary.isEmpty then .ok none
  else if remote then do
    let (result, _) ← grouped store predicate [] o.totalSummary [] s
    return result.totals
  else do
    let records ← (store.load false (.all predicate)).mapError .backend
    let (_, totals) ← (summarized store.shape s.guardNulls o.totalSummary [] []
      fun _ => .ok (.rows records)).mapError .ofRequest
    return some (totals.getD [])

/-- The number of matching records, if it is asked for. -/
def totalCountOf (o : LoadRequest) (predicate : Predicate) (take : Option Nat)
    (data : List Value) : Except (LoadFailure StoreError) Int :=
  if !o.requireTotalCount then .ok (-1)
  else if o.skip = 0 ∧ take = none then .ok data.length
  else do
    let n ← (store.count false predicate).mapError .backend
    return (n : Int)

/-- A page of records. -/
def recordPageOf (o : LoadRequest) (predicate : Predicate) (s : Settings) (remote : Bool) :
    Except (LoadFailure StoreError) LoadAnswer := do
  let take := o.pageSize config.maxTake
  let summary ← totalsOf store o predicate s remote
  let data ← (store.load false ⟨predicate, o.sort, o.skip, take⟩).mapError .backend
  let totalCount ← totalCountOf store o predicate take data
  return { LoadAnswer.ofData (.records data) with totalCount := totalCount, summary := summary }

/-- Groups that are formed of the records. -/
def groupsHereOf (o : LoadRequest) (predicate : Predicate) (s : Settings) :
    Except (LoadFailure StoreError) LoadAnswer := do
  let sort := o.group.map Grouping.toSorting ++ o.sort
  let records ← (store.load false { PageQuery.all predicate with sort := sort }).mapError .backend
  let (data, totals) ← (summarized store.shape s.guardNulls o.totalSummary o.groupSummary
    (o.group.map Grouping.selector) fun accessors =>
      (Grouping.byLevels (keyAt accessors) accessors.length records).map .groups).mapError
        .ofRequest
  let groups := match data with
    | .groups gs => gs
    | _ => []
  let groups := if o.innermostCollapsed then Subtree.dropRowsOf groups else groups
  let result := (overStore store config).paginate o groups
  return { result with
    totalCount := if o.requireTotalCount then records.length else -1
    summary := totals }

/-- Groups that are formed of flat rows. -/
def groupsOfBackendOf (o : LoadRequest) (predicate : Predicate) (s : Settings) :
    Except (LoadFailure StoreError) LoadAnswer := do
  let (regrouped, countPosition) ←
    grouped store predicate o.group o.totalSummary o.groupSummary s
  let groups ←
    (collapse.collapseAll countPosition (regrouped.groups.getD [])).mapError .read
  let result := (overStore store config).paginate o groups
  return { result with
    totalCount := if o.requireTotalCount then regrouped.totalCount.toInt else -1
    summary := regrouped.totals }

/-- The answer to a request whose criteria are compiled. -/
def answer (o : LoadRequest) (predicate : Predicate) :
    Except (LoadFailure StoreError) LoadAnswer :=
  let l := overStore store config
  let s := l.settings o
  let remote := l.leavesGrouping o
  if o.isCountQuery then do
    let n ← (store.count false predicate).mapError .backend
    return { LoadAnswer.ofData (.records []) with totalCount := n }
  else if !o.isGrouped then recordPageOf store config o predicate s remote
  else if remote && o.innermostCollapsed then groupsOfBackendOf store config o predicate s
  else groupsHereOf store config o predicate s

variable {store config}

/-- The four ways to an answer. -/
theorem answer_eq_ok {o : LoadRequest} {predicate : Predicate} {r : LoadAnswer} :
    answer store config o predicate = .ok r ↔
      (o.isCountQuery = true ∧ ∃ n : Nat, store.count false predicate = .ok n
          ∧ r = { LoadAnswer.ofData (.records []) with totalCount := n })
      ∨ (o.isCountQuery = false ∧ o.isGrouped = false
          ∧ recordPageOf store config o predicate ((overStore store config).settings o)
            ((overStore store config).leavesGrouping o) = .ok r)
      ∨ (o.isCountQuery = false ∧ o.isGrouped = true
          ∧ ((overStore store config).leavesGrouping o && o.innermostCollapsed) = true
          ∧ groupsOfBackendOf store config o predicate ((overStore store config).settings o)
            = .ok r)
      ∨ (o.isCountQuery = false ∧ o.isGrouped = true
          ∧ ((overStore store config).leavesGrouping o && o.innermostCollapsed) = false
          ∧ groupsHereOf store config o predicate ((overStore store config).settings o)
            = .ok r) := by
  rw [answer]
  cases o.isCountQuery with
  | true =>
    simp only [if_true, Outcome.bind_eq_ok, Outcome.mapError_eq_ok, true_and, Bool.true_eq_false,
      false_and, or_false]
    refine exists_congr fun n => and_congr_right fun _ => ?_
    exact ⟨fun h => (Except.ok.inj h).symm, fun h => congrArg Except.ok h.symm⟩
  | false =>
    cases o.isGrouped with
    | false => simp
    | true => cases (overStore store config).leavesGrouping o && o.innermostCollapsed <;> simp

/-- The two ways to groups. -/
theorem answer_groups_eq_ok {o : LoadRequest} {predicate : Predicate} {r : LoadAnswer}
    (groups : o.isCountQuery = false) (grouped : o.group ≠ []) :
    answer store config o predicate = .ok r ↔
      (((overStore store config).leavesGrouping o && o.innermostCollapsed) = true
          ∧ groupsOfBackendOf store config o predicate ((overStore store config).settings o)
            = .ok r)
      ∨ (((overStore store config).leavesGrouping o && o.innermostCollapsed) = false
          ∧ groupsHereOf store config o predicate ((overStore store config).settings o)
            = .ok r) := by
  have isGrouped : o.isGrouped = true := by simpa [LoadRequest.isGrouped] using grouped
  rw [answer_eq_ok]
  simp only [groups, isGrouped, Bool.false_eq_true, Bool.true_eq_false, false_and, true_and,
    false_or]

/-- A call of the store leads to its outcome, if the request is not cancelled. -/
theorem computes_call {α : Type} (made : BackendCall) (outcome : Except StoreError α) :
    Computes Running (Loading.call made fun _ => Course.ends false outcome)
      (outcome.mapError .backend) := by
  intro state running
  have run : (Loading.call made fun _ => Course.ends false outcome).run.run state
      = (outcome.mapError .backend,
          { state with cancelled := false, calls := state.calls ++ [made] }) := by
    show (if state.cancelled then _ else _) = _
    rw [running]
    cases outcome <;> rfl
  rw [run]
  exact ⟨rfl, rfl⟩

/-- An error of compiling is that of the request. -/
theorem computes_compiling {α : Type} (outcome : Except CompileError α) :
    Computes Running (Loading.compiling outcome : Loading StoreError α)
      (outcome.mapError .compile) :=
  fun _ running => ⟨rfl, running⟩

/-- So is an error of reading. -/
theorem computes_reading {α : Type} (outcome : Except ReadError α) :
    Computes Running (Loading.reading outcome : Loading StoreError α) (outcome.mapError .read) :=
  fun _ running => ⟨rfl, running⟩

theorem computes_requesting {α : Type} (outcome : Except RequestError α) :
    Computes Running (Loading.requesting outcome : Loading StoreError α)
      (outcome.mapError .ofRequest) :=
  fun _ running => ⟨rfl, running⟩

/-- Grouping by the store is what the store projects, regrouped. -/
theorem computes_grouped (predicate : Predicate) (grouping : List Grouping)
    (total group : List Summary) (s : Settings) :
    Computes Running ((overStore store config).backendGrouping predicate grouping total group s)
      (grouped store predicate grouping total group s) := by
  rw [backendGrouping_eq]
  refine (computes_compiling _).bind fun plan _ => ?_
  refine (computes_call (.flatGroups ⟨predicate, grouping, plan⟩) _).bind fun rows _ => ?_
  exact (computes_requesting _).bind fun _ _ => .pure _

/-- Totals come of the store either way, of its records or of its flat rows. -/
theorem computes_totals (o : LoadRequest) (predicate : Predicate) (s : Settings) (remote : Bool) :
    Computes Running ((overStore store config).totals o predicate s remote)
      (totalsOf store o predicate s remote) := by
  rw [totals, totalsOf]
  split
  · exact .pure none
  · split
    · exact (computes_grouped predicate [] o.totalSummary [] s).bind fun _ _ => .pure _
    · refine (computes_call _ _).bind fun records _ => ?_
      rw [summarize_eq]
      exact (computes_requesting _).bind fun _ _ => .pure _

/-- So does a page of records. -/
theorem computes_recordPage (o : LoadRequest) (predicate : Predicate) (s : Settings)
    (remote : Bool) :
    Computes Running ((overStore store config).recordPage o predicate s remote)
      (recordPageOf store config o predicate s remote) := by
  refine (computes_totals o predicate s remote).bind fun summary _ => ?_
  refine (computes_call _ _).bind fun data _ => ?_
  rw [totalCountOf]
  dsimp only
  split
  · exact .pure _
  · split
    next whole =>
      rw [if_pos (show o.skip = 0 ∧ o.pageSize config.maxTake = none from whole)]
      exact .pure _
    next part =>
      rw [if_neg (show ¬ (o.skip = 0 ∧ o.pageSize config.maxTake = none) from part)]
      refine ((computes_call _ _).bind fun n _ => .pure _).of_eq ?_
      cases store.count false predicate <;> rfl

/-- So do groups that are made here. -/
theorem computes_groupsHere (o : LoadRequest) (predicate : Predicate) (s : Settings) :
    Computes Running ((overStore store config).groupsHere o predicate s)
      (groupsHereOf store config o predicate s) := by
  refine (computes_call _ _).bind fun records _ => ?_
  rw [summarize_eq]
  exact (computes_requesting _).bind fun _ _ => .pure _

/-- So do groups that the store makes. -/
theorem computes_groupsOfBackend (o : LoadRequest) (predicate : Predicate) (s : Settings) :
    Computes Running ((overStore store config).groupsOfBackend o predicate s)
      (groupsOfBackendOf store config o predicate s) := by
  refine (computes_grouped predicate o.group o.totalSummary o.groupSummary s).bind
    fun result _ => ?_
  exact (computes_reading _).bind fun _ _ => .pure _

/-- Compiling the filter does not cancel the request. -/
theorem running_predicateOf (o : LoadRequest) (s : Settings) {state : LoadState}
    (running : Running state) :
    Running (((overStore store config).predicateOf o s).run.run state).2 := by
  rw [predicateOf]
  cases o.criteria <;> exact running

/-- A request over a store: its criteria are compiled, and then the answer is a function of the
records. -/
theorem serve_eq (o : LoadRequest) (registry : Option Registry) :
    ((overStore store config).serve o false registry).1
      = ((((overStore store config).predicateOf o ((overStore store config).settings o)).run.run
          ⟨false, [], registry⟩).1 >>= answer store config o) := by
  have rest : ∀ predicate, Computes Running (do
      if o.isCountQuery then
        let n ← (overStore store config).count predicate
        return { LoadAnswer.ofData (.records []) with totalCount := n }
      else
        let remote := (overStore store config).leavesGrouping o
        let s := (overStore store config).settings o
        if !o.isGrouped then (overStore store config).recordPage o predicate s remote
        else if remote && o.innermostCollapsed then
          (overStore store config).groupsOfBackend o predicate s
        else (overStore store config).groupsHere o predicate s)
      (answer store config o predicate) := by
    intro predicate
    rw [answer]
    split
    · exact (computes_call _ _).bind fun _ _ => .pure _
    · dsimp only
      split
      · exact computes_recordPage o predicate _ _
      · split
        · exact computes_groupsOfBackend o predicate _
        · exact computes_groupsHere o predicate _
  -- nothing was called so far, so the request still runs when the predicate is there
  have running : Running (((overStore store config).predicateOf o
      ((overStore store config).settings o)).run.run ⟨false, [], registry⟩).2 :=
    running_predicateOf o _ rfl
  rw [serve, load]
  rcases hrun : ((overStore store config).predicateOf o
    ((overStore store config).settings o)).run.run ⟨false, [], registry⟩ with ⟨outcome, state⟩
  rw [hrun] at running
  cases outcome with
  | error e =>
    rw [run_bind_of_error hrun]
    rfl
  | ok predicate =>
    rw [run_bind_of_ok hrun]
    exact (rest predicate state running).1

end Loader

end DataGrid
