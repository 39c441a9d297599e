import DataGrid.Proofs.Loader.Form
import DataGrid.Proofs.Loader.Leaves
import DataGrid.Proofs.Loader.Protocol
import DataGrid.Proofs.Regrouping.Entries

/-!
# Two readings of the numbers of rows

The last column of flat rows is read twice: `Row.sumCounts` adds up all counts, and
`Loader.rowCountOf` says what a row counts under its innermost group. They differ in what they read,
and in what they make of negative counts and of sums that leave a word: one is kept within a signed
word at every step, the other goes around in an unsigned one.

* `Loader.alike_collapseAll`: groups of flat rows collapse exactly if all rows are counted, and
  their innermost groups count as many as the rows do.
* `Tally.foldl_addCounts_eq_counted_iff`: a sum that is kept within a word at every step is the
  number that was counted exactly if no count is negative and a word holds the sum.
* `Loader.Delegates` says that a request leaves its groups to a backend, and
  `Loader.Delegates.leavesCounted` what its answer counts then.
-/

namespace DataGrid

open Outcome (Alike)
open Subtree (At leafRows leafRowsOf leaves leavesUnder Levelled)

/-! ### Sums that are kept within a word -/

namespace Tally

/-- What integers count if negative ones count none. -/
def counted (is : List Int64) : Nat := (is.map fun i => i.toInt.toNat).sum

theorem counted_cons (i : Int64) (is : List Int64) :
    counted (i :: is) = i.toInt.toNat + counted is := by
  rw [counted, List.map_cons, List.sum_cons]
  rfl

/-- What integers count does not hang on their order. -/
theorem counted_perm {is js : List Int64} (perm : is.Perm js) : counted is = counted js :=
  (perm.map _).sum_eq

/-- Integers that are not negative count what they add up to. -/
theorem counted_of_nonneg {is : List Int64} (low : ∀ i ∈ is, 0 ≤ i.toInt) :
    (counted is : Int) = (is.map Int64.toInt).sum := by
  induction is with
  | nil => rfl
  | cons i is ih =>
    obtain ⟨hi, low⟩ := List.forall_mem_cons.1 low
    rw [counted_cons, List.map_cons, List.sum_cons, ← ih low, Nat.cast_add, Int.toNat_of_nonneg hi]

/-- The step: a sum that is no more than what was counted stays so, and less if it is less or the
integer is negative. -/
theorem addCounts_le {a i : Int64} {n : Nat} (h : a.toInt ≤ n) :
    (addCounts a i).toInt ≤ (n + i.toInt.toNat : Nat) := by
  rw [addCounts, Integer.toInt_saturate, Integer.least]
  omega

theorem addCounts_lt {a i : Int64} {n : Nat} (h : a.toInt < n ∨ a.toInt ≤ n ∧ i.toInt < 0) :
    (addCounts a i).toInt < (n + i.toInt.toNat : Nat) := by
  rw [addCounts, Integer.toInt_saturate, Integer.least]
  omega

/-- The run: a sum is less than what was counted if it was so before or an integer is negative. -/
theorem foldl_addCounts_lt {is : List Int64} {a : Int64} {n : Nat}
    (h : a.toInt < n ∨ a.toInt ≤ n ∧ ∃ i ∈ is, i.toInt < 0) :
    (is.foldl addCounts a).toInt < (n + counted is : Nat) := by
  induction is generalizing a n with
  | nil => simpa [counted] using h
  | cons i is ih =>
    rw [List.foldl_cons, counted_cons, ← Nat.add_assoc]
    rcases h with less | ⟨le, j, hj, negative⟩
    · exact ih (.inl (addCounts_lt (.inl less)))
    · rcases List.mem_cons.1 hj with rfl | hj
      · exact ih (.inl (addCounts_lt (.inr ⟨le, negative⟩)))
      · exact ih (.inr ⟨addCounts_le le, j, hj, negative⟩)

/-- A sum that is kept within a word at every step is what was counted exactly if no integer is
negative and a word holds their sum. -/
theorem foldl_addCounts_eq_counted_iff (is : List Int64) :
    (is.foldl addCounts 0).toInt = counted is
      ↔ (∀ i ∈ is, 0 ≤ i.toInt) ∧ Integer.Fits (is.map Int64.toInt).sum := by
  by_cases low : ∀ i ∈ is, 0 ≤ i.toInt
  · rw [foldl_addCounts_of_nonneg low, counted_of_nonneg low, Int64.toInt_zero, Int.zero_add,
      and_iff_right low, Integer.toInt_saturate]
    constructor
    · intro same
      rw [← same]
      exact ⟨Int.le_max_left _ _, Int.max_le.2 ⟨by decide, Int.min_le_right _ _⟩⟩
    · intro fits
      rw [Int.min_eq_left fits.2, Int.max_eq_right fits.1]
  · have negative : ∃ i ∈ is, i.toInt < 0 := by simpa using low
    have less := foldl_addCounts_lt (a := 0) (n := 0) (.inr ⟨Int.le_refl 0, negative⟩)
    rw [Nat.zero_add] at less
    exact iff_of_false less.ne fun h => low h.1

end Tally

namespace Loader

variable {position : Nat}

/-! ### Rows that hold integers -/

/-- The number of a row can be read exactly if it is an integer, and a negative one is zero. -/
theorem rowCountOf_eq_ok_iff {row : Row} {n : Nat} : rowCountOf position row = .ok n
    ↔ ∃ i : Int64, row.get position = .ok (.int i) ∧ i.toInt.toNat = n := by
  rw [rowCountOf]
  cases row.get position with
  | error e => simp [bind, Except.bind]
  | ok v =>
    cases v with
    | int i =>
      constructor
      · intro h
        exact ⟨i, rfl, Except.ok.inj h⟩
      · rintro ⟨j, hj, h⟩
        cases hj
        exact congrArg _ h
    | _ => simp [bind, Except.bind]

/-- What is not counted is no integer, or not there. -/
theorem rowCountOf_eq_error {row : Row} {e : ReadError} (h : rowCountOf position row = .error e) :
    row.get position = .error e
      ∨ ∃ v, row.get position = .ok v ∧ v.asInt? = none ∧ e = wrongKind "int" v := by
  rw [rowCountOf] at h
  cases hget : row.get position with
  | error e' =>
    rw [hget] at h
    cases h
    exact .inl rfl
  | ok v =>
    rw [hget] at h
    cases v with
    | int i => cases h
    | _ =>
      cases h
      exact .inr ⟨_, rfl, rfl, rfl⟩

/-- The integers at a position of rows. -/
def intsAt (position : Nat) (rows : List Row) : List Int64 := Value.ints (Row.cells position rows)

theorem intsAt_cons {row : Row} {i : Int64} (h : row.get position = .ok (.int i))
    (rest : List Row) : intsAt position (row :: rest) = i :: intsAt position rest := by
  rw [intsAt, Row.cells, List.map_cons, h]
  rfl

theorem intsAt_perm {rows rows' : List Row} (perm : rows'.Perm rows) :
    (intsAt position rows').Perm (intsAt position rows) :=
  (Row.cells_perm perm).filterMap _

/-- Counted rows hold integers, which count as many. -/
theorem sum_of_mapM_rowCountOf {rows : List Row} {counts : List Nat}
    (h : rows.mapM (rowCountOf position) = .ok counts) :
    counts.sum = Tally.counted (intsAt position rows) := by
  induction Outcome.mapM_eq_ok.1 h with
  | nil => rfl
  | cons hrow hrest ih =>
    obtain ⟨i, hi, rfl⟩ := rowCountOf_eq_ok_iff.1 hrow
    rw [intsAt_cons hi, Tally.counted_cons, List.sum_cons, ih (Outcome.mapM_eq_ok.2 hrest)]

/-- The counts of rows that hold integers are added up one after another. -/
theorem sumCounts_of_ints {rows : List Row}
    (ints : ∀ row ∈ rows, ∃ i, row.get position = .ok (.int i)) :
    Row.sumCounts position rows = .ok ((intsAt position rows).foldl Tally.addCounts 0) := by
  have grow : ∀ sum : Int64, rows.foldlM (Row.addCount position) sum
      = .ok ((intsAt position rows).foldl Tally.addCounts sum) := by
    induction rows with
    | nil => exact fun _ => rfl
    | cons row rest ih =>
      intro sum
      obtain ⟨⟨i, hi⟩, ints⟩ := List.forall_mem_cons.1 ints
      rw [List.foldlM_cons, Row.addCount, hi, intsAt_cons hi, List.foldl_cons]
      exact ih ints (Tally.addCounts sum i)
  exact grow 0

/-! ### Rows as they are counted under innermost groups -/

/-- Rows whose integers a word can add up stand for as many records as they count. -/
theorem alike_sumRowCounts_of_fits {rows : List Row}
    (fits : Tally.counted (intsAt position rows) < UInt64.size) :
    Alike (fun n counts => n = counts.sum) (sumRowCounts position rows)
      (rows.mapM (rowCountOf position)) := by
  have alike : Alike _ (sumRowCounts position rows) _ := alike_sumRowCounts rows
  generalize hcounts : rows.mapM (rowCountOf position) = counts? at alike ⊢
  generalize sumRowCounts position rows = sum? at alike ⊢
  cases alike with
  | ok same =>
    rw [← sum_of_mapM_rowCountOf hcounts] at fits
    exact .ok (same.trans (Nat.mod_eq_of_lt fits))
  | error e => exact .error e

/-- A word can add up the counts under each innermost group. -/
def PartsFit (position : Nat) (t : Subtree Row) : Prop :=
  ∀ path part, At t path (.rows part) → Tally.counted (intsAt position part) < UInt64.size

/-- The parts under a group fit if those under all groups do. -/
theorem PartsFit.items {gs : List (Group Row)} (h : PartsFit position (.groups gs)) :
    ∀ g ∈ gs, PartsFit position g.items := fun _ hg _ _ place => h _ _ (.under hg place)

/-- Innermost groups that count, all together, as many as some numbers add up to. -/
def CountsAs (found : List Leaf) (counts : List Nat) : Prop :=
  ∃ ns : List Nat, found.map Leaf.count = ns.map some ∧ ns.sum = counts.sum

/-- Leaves that count together are counted one after another. -/
theorem CountsAs.append {found found' : List Leaf} {counts counts' : List Nat}
    (h : CountsAs found counts) (h' : CountsAs found' counts') :
    CountsAs (found ++ found') (counts ++ counts') := by
  obtain ⟨ns, each, sum⟩ := h
  obtain ⟨ns', each', sum'⟩ := h'
  exact ⟨ns ++ ns', by rw [List.map_append, List.map_append, each, each'],
    by rw [List.sum_append, List.sum_append, sum, sum']⟩

variable {P : Option (List Value) → Prop}

/-- The step: groups collapse, one after another, as what stands under them does. -/
theorem alike_collapseAll_of {levels : Nat}
    (step : ∀ t : Subtree Row, Levelled P false levels t → PartsFit position t → ∀ path count,
      Alike (fun r => CountsAs (leaves path r.2 r.1)) (collapse position count t)
        ((leafRows t).mapM (rowCountOf position)))
    {gs : List (Group Row)} (h : Levelled P false (levels + 1) (.groups gs))
    (fits : ∀ g ∈ gs, PartsFit position g.items) (path : List Value) :
    Alike (fun gs' => CountsAs (leavesUnder path gs')) (collapse.collapseAll position gs)
      ((leafRowsOf gs).mapM (rowCountOf position)) := by
  induction gs with
  | nil => exact .ok ⟨[], rfl, rfl⟩
  | cons g rest ih =>
    obtain ⟨key, items, count, summary⟩ := g
    obtain ⟨⟨-, -, under⟩, others⟩ := List.forall_mem_cons.1 h
    obtain ⟨here, there⟩ := List.forall_mem_cons.1 fits
    rw [collapse.collapseAll, leafRowsOf, List.mapM_append]
    refine (step items under here (path ++ [key]) count).bind fun r counts same => ?_
    refine (ih others there).bind fun rest' counts' same' => .ok ?_
    rw [leavesUnder]
    exact same.append same'

/-- The run: a tree collapses exactly if all its flat rows are counted, and its innermost groups
count as many; if not, the first row that is not counted is why. -/
theorem alike_collapse {levels : Nat} {t : Subtree Row} (h : Levelled P false levels t)
    (fits : PartsFit position t) (path : List Value) (count : Option Nat) :
    Alike (fun r => CountsAs (leaves path r.2 r.1)) (collapse position count t)
      ((leafRows t).mapM (rowCountOf position)) := by
  induction levels generalizing t path count with
  | zero =>
    cases t with
    | groups _ | dropped => cases h
    | rows rows =>
      rw [collapse, ← bind_pure (List.mapM _ _)]
      refine (alike_sumRowCounts_of_fits (fits [] rows (.here _))).bind fun n counts sum =>
        .ok ⟨[n], rfl, ?_⟩
      rw [List.sum_singleton, sum]
  | succ levels ih =>
    obtain ⟨gs, rfl⟩ := h.exists_groups
    rw [collapse, ← bind_pure (List.mapM _ _)]
    refine (alike_collapseAll_of (fun t ht fits path count => ih ht fits path count) h fits.items
      path).bind ?_
    exact fun gs' counts same => .ok same

/-- Groups collapse as their trees do. -/
theorem alike_collapseAll {levels : Nat} {gs : List (Group Row)}
    (h : Levelled P false (levels + 1) (.groups gs)) (fits : PartsFit position (.groups gs))
    (path : List Value) :
    Alike (fun gs' => CountsAs (leavesUnder path gs')) (collapse.collapseAll position gs)
      ((leafRowsOf gs).mapM (rowCountOf position)) :=
  alike_collapseAll_of (fun _ ht fits path count => alike_collapse ht fits path count) h fits.items
    path

/-! ### Groups of flat rows -/

/-- What flat rows are folded into: groups down to rows, which are those given, and the sum of their
counts. -/
theorem groups_of_regrouped {shape : Shape} {guardNulls : Bool} {levels : Nat}
    {total group : List Summary} {plan : Projection} {rows : List Row} {result : Regrouped}
    (hplan : Projection.planned? shape guardNulls levels total group = .ok plan)
    (positive : 0 < levels)
    (h : Projection.regrouped shape guardNulls rows levels total group = .ok result) :
    ∃ gs P, result.groups = some gs ∧ Levelled P false levels (.groups gs)
      ∧ (leafRowsOf gs).Perm rows
      ∧ Row.sumCounts plan.countPosition (leafRowsOf gs) = .ok result.totalCount := by
  obtain ⟨t, ⟨levelled, -⟩, hgroups⟩ := Projection.regrouped_hasForm h
  obtain ⟨below, rfl⟩ := Nat.exists_eq_succ_of_ne_zero positive.ne'
  obtain ⟨gs, rfl⟩ := levelled.exists_groups
  obtain ⟨leaves, perm, tree, sum⟩ := Projection.counted_of_regrouped hplan h
  obtain rfl : leaves = leafRowsOf gs := by
    rw [hgroups] at tree
    exact tree
  exact ⟨gs, _, hgroups, levelled, perm, sum⟩

/-! ### The work on a request -/

variable {ε : Type} (l : Loader ε)

/-- A call of a running request that ends well leaves the request running. -/
theorem run_call {α : Type} (made : BackendCall) (answer : List BackendCall → Course ε α)
    {state : LoadState} {a : α} (running : state.cancelled = false)
    (ends : (answer state.calls).Ends false (.ok a)) :
    (Loading.call made answer).run.run state
      = (.ok a, { state with cancelled := false, calls := state.calls ++ [made] }) := by
  have run : (Loading.call made answer).run.run state
      = if state.cancelled then (.error .cancelled, state)
        else ((Loading.follow (answer state.calls)).1, { state with
          cancelled := (Loading.follow (answer state.calls)).2, calls := state.calls ++ [made] }) :=
    rfl
  rw [run, running, if_neg Bool.false_ne_true, ends.follow_eq]
  rfl

/-- Compiling criteria makes no call. -/
theorem state_predicateOf (o : LoadRequest) (s : Settings) (state : LoadState) :
    ((l.predicateOf o s).run.run state).2.cancelled = state.cancelled
      ∧ ((l.predicateOf o s).run.run state).2.calls = state.calls := by
  rw [predicateOf]
  cases o.criteria <;> exact ⟨rfl, rfl⟩

/-- A backend gives flat rows, which are folded. -/
theorem run_backendGrouping {predicate : Predicate} {grouping : List Grouping}
    {total group : List Summary} {s : Settings} {plan : Projection} {rows : List Row}
    {result : Regrouped} {state : LoadState} (running : state.cancelled = false)
    (plans : Projection.made (l.resolver s) grouping.length total group = .ok plan)
    (gives : (l.backend.project state.calls ⟨predicate, grouping, plan⟩).Ends false (.ok rows))
    (accepts : Projection.folded (l.resolver s) rows grouping.length total group = .ok result) :
    (l.backendGrouping predicate grouping total group s).run.run state
      = (.ok (result, plan.countPosition), { state with
          cancelled := false
          calls := state.calls ++ [.flatGroups ⟨predicate, grouping, plan⟩] }) := by
  have fresh : (l.resolver s).Serves l.backend.shape s.guardNulls := Resolver.serves_fresh
  have planned := Projection.planned?_of_made fresh plans
  rw [Projection.folded_eq fresh] at accepts
  have given := run_call (.flatGroups ⟨predicate, grouping, plan⟩)
    (l.backend.project · ⟨predicate, grouping, plan⟩) running gives
  rw [backendGrouping_eq, planned]
  refine (run_bind_of_ok rfl).trans ((run_bind_of_ok given).trans ?_)
  rw [accepts]
  rfl

/-- The answer to a request for collapsed groups, given what flat rows are folded into and the
groups without them. -/
def answerOf (o : LoadRequest) (result : Regrouped) (gs : List (Group Value)) : LoadAnswer :=
  { l.paginate o gs with
    totalCount := if o.requireTotalCount then result.totalCount.toInt else -1
    summary := result.totals }

/-- A request leaves its groups to a backend, which gives flat rows that are folded. -/
structure Delegates (o : LoadRequest) (registry : Option Registry) (predicate : Predicate)
    (plan : Projection) (rows : List Row) (result : Regrouped) : Prop where
  /-- more than a number is wanted -/
  whole : o.isCountQuery = false
  /-- groups are asked for -/
  grouped : o.isGrouped = true
  /-- the innermost of them are shown without their rows -/
  collapsed : o.innermostCollapsed = true
  /-- the backend is to group -/
  remote : l.leavesGrouping o = true
  /-- the criteria compile -/
  compiles : ((l.predicateOf o (l.settings o)).run.run ⟨false, [], registry⟩).1 = .ok predicate
  /-- the summaries can be planned -/
  plans : Projection.made (l.resolver (l.settings o)) o.group.length o.totalSummary o.groupSummary
    = .ok plan
  /-- the backend gives rows, and nothing cancels the request -/
  gives : (l.backend.project [] ⟨predicate, o.group, plan⟩).Ends false (.ok rows)
  /-- the rows are folded -/
  accepts : Projection.folded (l.resolver (l.settings o)) rows o.group.length o.totalSummary
    o.groupSummary = .ok result

/-- How a request ends whose flat rows are folded. The sum of all counts reads the cells of the
count column as numbers, and innermost groups read them as integers, of which negative ones count
none. -/
structure LeavesCounted (o : LoadRequest) (position : Nat) (rows : List Row)
    (result : Regrouped) (outcome : Except (LoadFailure ε) LoadAnswer) : Prop where
  /-- it succeeds exactly if all cells are integers -/
  succeeds : (∃ r, outcome = .ok r) ↔ ∀ row ∈ rows, ∃ i, row.get position = .ok (.int i)
  /-- if not, a cell that is none is refused -/
  refuses : ∀ e, outcome = .error e → ∃ row ∈ rows, ∃ v, row.get position = .ok v
    ∧ v.asInt? = none ∧ e = .read (wrongKind "int" v)
  /-- the answer is a page of groups of which the innermost count what the cells do, and this is the
  sum of all counts exactly if no cell is negative and a word holds the sum -/
  adds : ∀ r, outcome = .ok r → ∃ (gs : List (Group Value)) (ns : List Nat),
    collapse.collapseAll position (result.groups.getD []) = .ok gs
    ∧ r.data = .groups (page o.skip (o.pageSize l.config.maxTake) gs)
    ∧ r.totalCount = (if o.requireTotalCount then result.totalCount.toInt else -1)
    ∧ (leavesUnder [] gs).map Leaf.count = ns.map some
    ∧ ns.sum = Tally.counted (intsAt position rows)
    ∧ ((ns.sum : Int) = result.totalCount.toInt ↔ (∀ i ∈ intsAt position rows, 0 ≤ i.toInt)
      ∧ Integer.Fits ((intsAt position rows).map Int64.toInt).sum)

section Delegated

variable {l} {o : LoadRequest} {registry : Option Registry} {predicate : Predicate}
variable {plan : Projection} {rows : List Row} {result : Regrouped}

/-- The outcome is that of collapsing the groups of flat rows. -/
theorem Delegates.serve_eq (h : l.Delegates o registry predicate plan rows result) :
    (l.serve o false registry).1
      = ((collapse.collapseAll plan.countPosition (result.groups.getD [])).mapError .read).map
          (l.answerOf o result) := by
  obtain ⟨whole, grouped, collapsed, remote, compiles, plans, gives, accepts⟩ := h
  have state := l.state_predicateOf o (l.settings o) ⟨false, [], registry⟩
  rcases hrun : (l.predicateOf o (l.settings o)).run.run ⟨false, [], registry⟩ with ⟨_, state'⟩
  rw [hrun] at compiles state
  cases compiles
  obtain ⟨running, uncalled⟩ : state'.cancelled = false ∧ state'.calls = [] := state
  have grouping := l.run_backendGrouping running plans (uncalled ▸ gives) accepts
  rw [serve, load, run_bind_of_ok hrun]
  simp only [whole, grouped, remote, collapsed, Bool.false_eq_true, if_false, if_true,
    Bool.not_true, Bool.and_self]
  rw [groupsOfBackend, run_bind_of_ok grouping]
  simp only
  cases hcollapse : collapse.collapseAll plan.countPosition (result.groups.getD []) with
  | error e => rfl
  | ok gs => rfl

/-- What collapsing gives is what the rows are counted as, in the order of the leaves of their tree;
how the request ends follows. -/
theorem leavesCounted_of_alike {leaves : List Row} {groups? : Except ReadError (List (Group Value))}
    (collapsed : collapse.collapseAll position (result.groups.getD []) = groups?)
    (perm : leaves.Perm rows) (sum : Row.sumCounts position leaves = .ok result.totalCount)
    (alike : Alike (fun gs => CountsAs (leavesUnder [] gs)) groups?
      (leaves.mapM (rowCountOf position))) :
    l.LeavesCounted o position rows result
      ((groups?.mapError .read).map (l.answerOf o result)) := by
  generalize hcounts : leaves.mapM (rowCountOf position) = counts? at alike
  cases alike with
  | @ok gs counts same =>
    have ints : ∀ row ∈ leaves, ∃ i, row.get position = .ok (.int i) := by
      intro row hrow
      obtain ⟨n, -, hn⟩ := Outcome.exists_of_mapM_eq_ok hcounts hrow
      obtain ⟨i, hi, -⟩ := rowCountOf_eq_ok_iff.1 hn
      exact ⟨i, hi⟩
    have counted := sum_of_mapM_rowCountOf hcounts
    have total := (sumCounts_of_ints ints).symm.trans sum
    have cells : (intsAt position leaves).Perm (intsAt position rows) := intsAt_perm perm
    refine ⟨iff_of_true ⟨_, rfl⟩ fun row hrow => ints row (perm.mem_iff.2 hrow),
      fun e he => (nomatch he), fun r hr => ?_⟩
    cases hr
    obtain ⟨ns, each, adds⟩ := same
    rw [counted] at adds
    refine ⟨gs, ns, collapsed, rfl, rfl, each, adds.trans (Tally.counted_perm cells), ?_⟩
    rw [← Except.ok.inj total, adds, eq_comm, Tally.foldl_addCounts_eq_counted_iff]
    simp only [cells.mem_iff, (cells.map Int64.toInt).sum_eq]
  | error e =>
    -- every row has a cell, since the counts of all of them were added up
    obtain ⟨before, row, after, same, -, failing⟩ := Outcome.mapM_eq_error.1 hcounts
    have hrow : row ∈ leaves := same ▸ List.mem_append_right _ List.mem_cons_self
    obtain ⟨v, hv⟩ := Row.get_of_lt (Row.lt_width_of_sumCounts sum row hrow)
    rcases rowCountOf_eq_error failing with missing | ⟨w, hw, other, rfl⟩
    · rw [hv] at missing
      cases missing
    refine ⟨iff_of_false (fun ⟨_, h⟩ => (nomatch h)) fun ints => ?_, fun e he => ?_,
      fun r hr => (nomatch hr)⟩
    · obtain ⟨i, hi⟩ := ints row (perm.mem_iff.1 hrow)
      rw [hw] at hi
      cases hi
      cases other
    · cases he
      exact ⟨row, perm.mem_iff.1 hrow, w, hw, other, rfl⟩

/-- Whatever a backend gives, as long as a word can add up the counts under each innermost group: a
request for collapsed groups whose flat rows are folded succeeds exactly if all counts in them are
integers, and its innermost groups add up to the sum of all counts exactly if moreover none is
negative and a signed word holds their sum. -/
theorem Delegates.leavesCounted (h : l.Delegates o registry predicate plan rows result)
    (fits : ∀ gs, result.groups = some gs → PartsFit plan.countPosition (.groups gs)) :
    l.LeavesCounted o plan.countPosition rows result (l.serve o false registry).1 := by
  have fresh : (l.resolver (l.settings o)).Serves l.backend.shape (l.settings o).guardNulls :=
    Resolver.serves_fresh
  have hplan := Projection.planned?_of_made fresh h.plans
  have folded := h.accepts
  rw [Projection.folded_eq fresh] at folded
  have grouped := h.grouped
  rw [LoadRequest.isGrouped, Bool.not_eq_true', List.isEmpty_eq_false_iff] at grouped
  obtain ⟨levels, hlevels⟩ :=
    Nat.exists_eq_succ_of_ne_zero (List.length_pos_of_ne_nil grouped).ne'
  obtain ⟨gs, P, hgroups, levelled, perm, sum⟩ :=
    groups_of_regrouped hplan (hlevels ▸ Nat.succ_pos levels) folded
  rw [hlevels] at levelled
  rw [h.serve_eq]
  refine leavesCounted_of_alike rfl perm sum ?_
  rw [hgroups]
  exact alike_collapseAll levelled (fits gs hgroups) []

end Delegated

/-! ### Visits by town -/

/-- A loader over a backend that gives the same flat rows of visits by town, whatever it is
asked. -/
def overVisits (rows : List Row) : Loader Unit where
  backend := {
    shape := ⟨"Visit", [.plain "town" .string]⟩
    inMemory := false
    load := fun _ _ => .ends false (.ok [])
    count := fun _ _ => .ends false (.ok 0)
    project := fun _ _ => .ends false (.ok rows) }
  config := .standard

/-- The request for towns and the number of visits. -/
def towns : LoadRequest :=
  { LoadRequest.everything with
    group := [(Grouping.on "town").collapsed]
    requireTotalCount := true }

/-- Its plan. -/
def planOfTowns : Projection where
  groupCount := 1
  columns := [.record, .key 0, .rowCount]
  total := [⟨.remoteCount, 2⟩]
  group := []
  countPosition := 2

/-- Three visits to Bonn and two to Ulm. -/
theorem leavesCounted_visits :
    let rows : List Row := [⟨[.null, .string "Bonn", .int 3]⟩, ⟨[.null, .string "Ulm", .int 2]⟩]
    let result : Regrouped :=
      ⟨some [.ofRows (.string "Bonn") [⟨[.null, .string "Bonn", .int 3]⟩],
        .ofRows (.string "Ulm") [⟨[.null, .string "Ulm", .int 2]⟩]], none, 5⟩
    (overVisits rows).Delegates towns none .always planOfTowns rows result
      ∧ (∀ gs, result.groups = some gs → PartsFit 2 (.groups gs))
      ∧ (overVisits rows).LeavesCounted towns 2 rows result
        ((overVisits rows).serve towns false none).1 := by
  intro rows result
  have delegates : (overVisits rows).Delegates towns none .always planOfTowns rows result :=
    ⟨rfl, rfl, rfl, rfl, rfl, rfl, .now false (.ok rows), rfl⟩
  have fits : ∀ gs, result.groups = some gs → PartsFit 2 (.groups gs) := by
    intro gs hgs path part place
    cases hgs
    -- rows stand under the towns only
    cases place with
    | under hg place =>
      simp only [List.mem_cons, List.not_mem_nil, or_false] at hg
      rcases hg with rfl | rfl <;> cases place <;> decide
  exact ⟨delegates, fits, delegates.leavesCounted fits⟩

/-- A count that is null is no count under a group, though it is zero among all counts; and a
negative count is zero under a group, though it is taken off from all counts. -/
theorem not_leavesCounted_null :
    let noCount : List Row := [⟨[.null, .string "Ulm", .null]⟩]
    let noResult : Regrouped := ⟨some [.ofRows (.string "Ulm") noCount], none, 0⟩
    let bonn : Row := ⟨[.null, .string "Bonn", .int 3]⟩
    let ulm : Row := ⟨[.null, .string "Ulm", .int (-1)]⟩
    let result : Regrouped :=
      ⟨some [.ofRows (.string "Bonn") [bonn], .ofRows (.string "Ulm") [ulm]], none, 2⟩
    (overVisits noCount).Delegates towns none .always planOfTowns noCount noResult
      ∧ ((overVisits noCount).serve towns false none).1
        = .error (.read (.typeMismatch "int" "null"))
      ∧ (overVisits [bonn, ulm]).Delegates towns none .always planOfTowns [bonn, ulm] result
      ∧ ((overVisits [bonn, ulm]).serve towns false none).1
        = .ok { LoadAnswer.ofData (.groups [.mk (.string "Bonn") .dropped (some 3) none,
            .mk (.string "Ulm") .dropped (some 0) none]) with totalCount := 2 } := by
  intro noCount noResult bonn ulm result
  exact ⟨⟨rfl, rfl, rfl, rfl, rfl, rfl, .now false _, rfl⟩, rfl,
    ⟨rfl, rfl, rfl, rfl, rfl, rfl, .now false _, rfl⟩, rfl⟩

end Loader

end DataGrid
