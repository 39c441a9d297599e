import DataGrid.Loader.Answer
import DataGrid.Loader.Work
import DataGrid.Wire

/-!
# Loading

A `Loader` answers requests with the help of a backend. `Loader.load` takes one of four ways:

* the number of matching records, if nothing else is wanted;
* a page of records, with totals over all matching records;
* groups of all matching records, formed here;
* groups that the backend computes as flat rows, which is possible if the innermost groups are
  shown without their rows.
-/

namespace DataGrid

/-- What answers requests. -/
structure Loader (ε : Type) where
  /-- what answers queries -/
  backend : Backend ε
  /-- what holds for all requests -/
  config : LoaderSettings

namespace Loader

variable {ε : Type} (l : Loader ε)

open Loading

/-- How filters and paths of a request are compiled. Values in memory may be null on the way of a
path. -/
def settings (o : LoadRequest) : Settings :=
  let s := l.config.engine
  let s := match o.stringToLower with
    | some on => s.folding on
    | none => s
  if l.backend.inMemory then s.guarding true else s

/-- Whether the backend is to group. -/
def leavesGrouping (o : LoadRequest) : Bool :=
  (o.remoteGrouping.or l.config.remoteGrouping).getD (!l.backend.inMemory)

/-- A resolver that remembers nothing. -/
def resolver (s : Settings) : Resolver := .fresh l.backend.shape s.guardNulls

/-- The predicate of the criteria of a request. -/
def predicateOf (o : LoadRequest) (s : Settings) : Loading ε Predicate :=
  match o.criteria with
  | none => return .always
  | some j =>
    ExceptT.mk fun state =>
      let session := Session.fresh s l.backend.shape state.registry
      let (outcome, session) := (Session.compileJson j).run.run session
      (outcome.mapError .compile, { state with registry := session.registry })

/-- Loads all records that a query matches. -/
def fetch (q : PageQuery) : Loading ε (List Value) :=
  call (.load q) fun calls => l.backend.load calls q

/-- Counts the records that match. -/
def count (predicate : Predicate) : Loading ε Nat :=
  call (.count predicate) fun calls => l.backend.count calls predicate

/-- Work on records in process: resolves the keys, builds a tree with them, computes totals and
summaries, and puts zeros in place of null sums. -/
def summarize (s : Settings) (total group : List Summary) (keys : List String)
    (build : List Accessor → Except ReadError (Subtree Value)) :
    Except RequestError (Subtree Value × Option (List Value)) :=
  let work : Requesting (Subtree Value × Option (List Value)) := do
    let accessors ← Requesting.compiling (keys.mapM Resolver.resolve)
    let data ← Requesting.reading (build accessors)
    let rollup ← Requesting.compiling (Rollup.overRecords total group)
    let (data, totals) ← Requesting.reading (rollup.run Rollup.readRecord data)
    Requesting.zeroSums total group data totals
  (work.run.run (l.resolver s)).1

/-- Lets the backend group: plans, makes the call, and folds the flat rows. The position of the
number of rows comes along. -/
def backendGrouping (predicate : Predicate) (grouping : List Grouping) (total group : List Summary)
    (s : Settings) : Loading ε (Regrouped × Nat) := do
  let (planned, resolver) :=
    (Projection.make grouping.length total group).run.run (l.resolver s)
  let plan ← compiling planned
  let query : ProjectionQuery := ⟨predicate, grouping, plan⟩
  let rows ← call (.flatGroups query) fun calls => l.backend.project calls query
  let (outcome, _) :=
    (Projection.regroup rows grouping.length total group).run.run resolver
  return (← requesting outcome, plan.countPosition)

/-- The totals over all matching records. -/
def totals (o : LoadRequest) (predicate : Predicate) (s : Settings) (remote : Bool) :
    Loading ε (Option (List Value)) := do
  if o.totalSummary.isEmpty then return none
  else if remote then
    let (result, _) ← l.backendGrouping predicate [] o.totalSummary [] s
    return result.totals
  else
    let records ← l.fetch (.all predicate)
    let (_, totals) ← requesting
      (l.summarize s o.totalSummary [] [] fun _ => .ok (.rows records))
    return some (totals.getD [])

/-- A page of records, with totals and the number of matching records if asked for. -/
def recordPage (o : LoadRequest) (predicate : Predicate) (s : Settings) (remote : Bool) :
    Loading ε LoadAnswer := do
  let take := o.pageSize l.config.maxTake
  let summary ← l.totals o predicate s remote
  let data ← l.fetch ⟨predicate, o.sort, o.skip, take⟩
  let totalCount : Int ←
    if !o.requireTotalCount then pure (-1)
    else if o.skip = 0 ∧ take = none then pure (data.length : Int)
    else do pure ((← l.count predicate : Nat) : Int)
  return { LoadAnswer.ofData (.records data) with totalCount := totalCount, summary := summary }

/-- A page of groups, with their number if asked for. -/
def paginate (o : LoadRequest) (groups : List (Group Value)) : LoadAnswer :=
  let shown := page o.skip (o.pageSize l.config.maxTake) groups
  { LoadAnswer.ofData (.groups shown) with
    groupCount := if o.requireGroupCount then groups.length else -1 }

/-- The key of a record at a level. -/
def keyAt (accessors : List Accessor) (record : Value) (level : Nat) : Except ReadError Value :=
  match accessors[level]? with
  | some a => a.read record
  | none => .ok .null

/-- Groups of all matching records, formed here. -/
def groupsHere (o : LoadRequest) (predicate : Predicate) (s : Settings) :
    Loading ε LoadAnswer := do
  let sort := o.group.map Grouping.toSorting ++ o.sort
  let records ← l.fetch { PageQuery.all predicate with sort := sort }
  let (data, totals) ← requesting
    (l.summarize s o.totalSummary o.groupSummary (o.group.map Grouping.selector) fun accessors =>
      (Grouping.byLevels (keyAt accessors) accessors.length records).map .groups)
  let groups := match data with
    | .groups gs => gs
    | _ => []
  let groups := if o.innermostCollapsed then Subtree.dropRowsOf groups else groups
  let result := l.paginate o groups
  return { result with
    totalCount := if o.requireTotalCount then records.length else -1
    summary := totals }

/-- The number of records that a flat row stands for; a negative number counts none. -/
def rowCountOf (countPosition : Nat) (row : Row) : Except ReadError Nat := do
  match ← row.get countPosition with
  | .int n => return n.toInt.toNat
  | other => throw (wrongKind "int" other)

/-- The number of records that flat rows stand for, which is kept in a word of 64 bits: a sum that
the word does not hold goes around. -/
def sumRowCounts (countPosition : Nat) (rows : List Row) : Except ReadError Nat :=
  rows.foldlM (fun n row => return (n + (← rowCountOf countPosition row)) % UInt64.size) 0

/-- What stands under a group of flat rows, and its count. Flat rows are dropped, and the records
that they stand for are counted. -/
def collapse (countPosition : Nat) (count : Option Nat) :
    Subtree Row → Except ReadError (Subtree Value × Option Nat)
  | .groups gs => return (.groups (← collapseAll gs), count)
  | .rows rows => return (.dropped, some (← sumRowCounts countPosition rows))
  | .dropped => return (.dropped, count)
where
  /-- Groups of flat rows as groups of records that are not shown. -/
  collapseAll : List (Group Row) → Except ReadError (List (Group Value))
    | [] => return []
    | .mk key items count summary :: rest => do
      let (items, count) ← collapse countPosition count items
      return .mk key items count summary :: (← collapseAll rest)

/-- Groups that the backend computes as flat rows. -/
def groupsOfBackend (o : LoadRequest) (predicate : Predicate) (s : Settings) :
    Loading ε LoadAnswer := do
  let (regrouped, countPosition) ←
    l.backendGrouping predicate o.group o.totalSummary o.groupSummary s
  let groups ← reading (collapse.collapseAll countPosition (regrouped.groups.getD []))
  let result := l.paginate o groups
  return { result with
    totalCount := if o.requireTotalCount then regrouped.totalCount.toInt else -1
    summary := regrouped.totals }

/-- Answers a request. -/
def load (o : LoadRequest) : Loading ε LoadAnswer := do
  let s := l.settings o
  let predicate ← l.predicateOf o s
  if o.isCountQuery then
    let n ← l.count predicate
    return { LoadAnswer.ofData (.records []) with totalCount := n }
  else
    let remote := l.leavesGrouping o
    if !o.isGrouped then l.recordPage o predicate s remote
    else if remote && o.innermostCollapsed then l.groupsOfBackend o predicate s
    else l.groupsHere o predicate s

/-- The outcome of a request and where it stands at the end, given whether it is cancelled from the
start and the custom compilers at hand. -/
def serve (o : LoadRequest) (cancelled : Bool) (registry : Option Registry) :
    Except (LoadFailure ε) LoadAnswer × LoadState :=
  (l.load o).run.run ⟨cancelled, [], registry⟩

end Loader

end DataGrid
