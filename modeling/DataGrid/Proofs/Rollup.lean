import DataGrid.Proofs.Group.Summaries
import DataGrid.Proofs.Outcome
import DataGrid.Rollup

/-!
# What a rollup computes

* `Measure.fold` folds one measure over rows by itself.
* `Rollup.Stands` ties the open tallies at a place of the walk to the rows before the place, and to
  the rows so far of each group around it. A walk keeps it (`Rollup.walk_eq_ok`), so that a rollup
  gives the summaries and totals that the measures by themselves give (`Rollup.run_eq_ok_iff`).
* It changes nothing but summaries (`Rollup.bare_run`), and if the tallies of all rows are known,
  the summary of a group is the outcome of the tallies of its rows (`Rollup.run_eq`).
-/

namespace DataGrid

open Subtree

/-! ### One measure by itself -/

namespace Measure

variable {α : Type} (read : Source → α → Except ReadError Value)

/-- The tally of a measure by itself over rows. -/
def tally (m : Measure) (rows : List α) : Except ReadError Tally :=
  rows.foldlM (Tally.step read m) (Tally.start m.kind)

/-- The value of a measure by itself over rows. -/
def fold (m : Measure) (rows : List α) : Except ReadError Value :=
  (m.tally read rows).map Tally.finish

/-- The values of measures over rows, in place of other values; without measures these stay. -/
def Gives (ms : List Measure) (rows : List α) (otherwise values? : Option (List Value)) : Prop :=
  if ms = [] then values? = otherwise
  else ∃ values, values? = some values
    ∧ List.Forall₂ (fun m v => m.fold read rows = .ok v) ms values

/-- The tallies of measures over rows. -/
def Tallied (ms : List Measure) (rows : List α) (ts : List Tally) : Prop :=
  List.Forall₂ (fun m t => m.tally read rows = .ok t) ms ts

variable {read} {ms : List Measure} {rows : List α} {ts ts' : List Tally}

theorem tallied_nil : Tallied read ms ([] : List α) (Rollup.fresh ms) := by
  rw [Tallied, Rollup.fresh, List.forall₂_map_right_iff, List.forall₂_same]
  exact fun _ _ => rfl

/-- More rows are folded into the tallies of the rows before. -/
theorem tally_append (m : Measure) (before rows : List α) :
    m.tally read (before ++ rows) = m.tally read before >>= rows.foldlM (Tally.step read m) :=
  List.foldlM_append

/-- One more row is a step of the tally. -/
theorem tally_concat (m : Measure) (rows : List α) (row : α) :
    m.tally read (rows ++ [row]) = m.tally read rows >>= (Tally.step read m · row) := by
  rw [tally_append]
  simp only [List.foldlM_cons, List.foldlM_nil, bind_pure]

/-- Rows that have tallies have some up to every place. -/
theorem Tallied.exists_before {before : List α} (h : Tallied read ms (before ++ rows) ts) :
    ∃ ts, Tallied read ms before ts := by
  have each : ∀ m ∈ ms, ∃ t, m.tally read before = .ok t := by
    intro m hm
    obtain ⟨t, -, ht⟩ := Outcome.exists_of_mapM_eq_ok (Outcome.mapM_eq_ok.2 h) hm
    rw [tally_append] at ht
    obtain ⟨t', ht', -⟩ := Outcome.bind_eq_ok.1 ht
    exact ⟨t', ht'⟩
  obtain ⟨ts, hts⟩ := Outcome.exists_mapM_eq_ok each
  exact ⟨ts, Outcome.mapM_eq_ok.1 hts⟩

/-- Rows have one list of tallies. -/
theorem Tallied.unique (h : Tallied read ms rows ts) (h' : Tallied read ms rows ts') : ts = ts' :=
  List.right_unique_forall₂' (fun _ _ _ h h' => Except.ok.inj (h.symm.trans h')) h h'

/-- Measures have values over the rows that they have tallies over. -/
theorem forall₂_fold_iff {values : List Value} :
    List.Forall₂ (fun m v => m.fold read rows = .ok v) ms values
      ↔ ∃ ts, Tallied read ms rows ts ∧ values = ts.map Tally.finish := by
  constructor
  · intro h
    induction h with
    | nil => exact ⟨[], .nil, rfl⟩
    | cons hm _ ih =>
      obtain ⟨t, ht, rfl⟩ := Outcome.map_eq_ok.1 hm
      obtain ⟨ts, hts, rfl⟩ := ih
      exact ⟨t :: ts, .cons ht hts, rfl⟩
  · rintro ⟨ts, hts, rfl⟩
    rw [List.forall₂_map_right_iff]
    exact hts.imp fun m t ht => Outcome.map_eq_ok.2 ⟨t, ht, rfl⟩

/-- Measures that have tallies give their values. -/
theorem Tallied.gives (h : Tallied read ms rows ts) (otherwise : Option (List Value)) :
    Gives read ms rows otherwise
      (if ms.isEmpty then otherwise else some (ts.map Tally.finish)) := by
  cases ms with
  | nil => rfl
  | cons m ms => exact ⟨_, rfl, forall₂_fold_iff.2 ⟨ts, h, rfl⟩⟩

/-- Measures that have values over rows have tallies. -/
theorem Gives.exists_tallied {otherwise values? : Option (List Value)}
    (h : Gives read ms rows otherwise values?) : ∃ ts, Tallied read ms rows ts := by
  cases ms with
  | nil => exact ⟨[], .nil⟩
  | cons m ms =>
    obtain ⟨values, -, hvalues⟩ := h
    obtain ⟨ts, hts, -⟩ := forall₂_fold_iff.1 hvalues
    exact ⟨ts, hts⟩

/-- Measures give one list of values. -/
theorem Gives.unique {otherwise values? values?' : Option (List Value)}
    (h : Gives read ms rows otherwise values?) (h' : Gives read ms rows otherwise values?') :
    values? = values?' := by
  rw [Gives] at h h'
  split at h
  next none =>
    rw [if_pos none] at h'
    rw [h, h']
  next some =>
    rw [if_neg some] at h'
    obtain ⟨values, rfl, hvalues⟩ := h
    obtain ⟨values', rfl, hvalues'⟩ := h'
    rw [List.right_unique_forall₂' (fun _ _ _ h h' => Except.ok.inj (h.symm.trans h')) hvalues
      hvalues']

end Measure

open DataGrid.Measure (Tallied Gives)

namespace Rollup

variable {α : Type} {read : Source → α → Except ReadError Value} {r : Rollup}

/-! ### The tallies at a place -/

/-- The open tallies are those of the rows before a place, and those of the rows so far of each
group around the place. -/
structure Stands (read : Source → α → Except ReadError Value) (r : Rollup) (before : List α)
    (stack : List (List α)) (o : Open) : Prop where
  /-- over all rows -/
  totals : Tallied read r.total before o.totals
  /-- over the rows of each group -/
  stack : List.Forall₂ (Tallied read r.group) stack o.stack

variable {before rows : List α} {stack : List (List α)} {o o' : Open} {row : α}

/-- The step for one set of tallies: it succeeds exactly if there are tallies with the row. -/
theorem stepAll_eq_ok {ms : List Measure} {ts ts' : List Tally} (h : Tallied read ms before ts) :
    stepAll read ms ts row = .ok ts' ↔ Tallied read ms (before ++ [row]) ts' := by
  induction h generalizing ts' with
  | nil =>
    rw [Tallied, List.forall₂_nil_left_iff]
    exact ⟨fun h => (Except.ok.inj h).symm, fun h => by rw [h]; rfl⟩
  | @cons m t ms ts ht _ ih =>
    have first (t' : Tally) : m.tally read (before ++ [row]) = .ok t'
        ↔ Tally.step read m t row = .ok t' := by
      rw [Measure.tally_concat, ht]
      rfl
    rw [stepAll, Outcome.bind_eq_ok, Tallied, List.forall₂_cons_left_iff]
    constructor
    · rintro ⟨t', ht', h⟩
      obtain ⟨rest, hrest, h⟩ := Outcome.bind_eq_ok.1 h
      cases h
      exact ⟨t', rest, (first t').2 ht', ih.1 hrest, rfl⟩
    · rintro ⟨t', rest, ht', hrest, rfl⟩
      exact ⟨t', (first t').1 ht', Outcome.bind_eq_ok.2 ⟨rest, ih.2 hrest, rfl⟩⟩

/-- The step for the sets of all groups that are open: each gets the row. -/
theorem stepStack_eq_ok {ms : List Measure} {sets sets' : List (List Tally)}
    (h : List.Forall₂ (Tallied read ms) stack sets) :
    stepStack read ms row sets = .ok sets'
      ↔ List.Forall₂ (Tallied read ms) (stack.map (· ++ [row])) sets' := by
  induction h generalizing sets' with
  | nil =>
    rw [stepStack, List.map_nil, List.forall₂_nil_left_iff]
    exact ⟨fun h => (Except.ok.inj h).symm, fun h => by rw [h]⟩
  | cons hset _ ih =>
    rw [stepStack, List.map_cons, List.forall₂_cons_left_iff, Outcome.bind_eq_ok]
    simp only [stepAll_eq_ok hset, Outcome.bind_eq_ok, ih]
    constructor
    · rintro ⟨set', hset', rest, hrest, h⟩
      cases h
      exact ⟨set', rest, hset', hrest, rfl⟩
    · rintro ⟨set', rest, hset', hrest, rfl⟩
      exact ⟨set', hset', rest, hrest, rfl⟩

/-- A row enters all tallies that are open. -/
theorem enterRow_eq_ok (h : Stands read r before stack o) :
    enterRow read r o row = .ok o'
      ↔ Stands read r (before ++ [row]) (stack.map (· ++ [row])) o' := by
  rw [enterRow, Outcome.bind_eq_ok]
  simp only [stepAll_eq_ok h.totals, Outcome.bind_eq_ok, stepStack_eq_ok h.stack]
  constructor
  · rintro ⟨totals, htotals, sets, hsets, h⟩
    cases h
    exact ⟨htotals, hsets⟩
  · rintro ⟨htotals, hstack⟩
    exact ⟨_, htotals, _, hstack, rfl⟩

/-- The rows before a place determine the tallies at it. -/
theorem Stands.unique (h : Stands read r before stack o) (h' : Stands read r before stack o') :
    o = o' := by
  obtain ⟨totals, sets⟩ := o
  obtain ⟨totals', sets'⟩ := o'
  obtain rfl := h.totals.unique h'.totals
  obtain rfl := List.right_unique_forall₂' (R := Tallied read r.group)
    (fun _ _ _ h h' => Measure.Tallied.unique h h') h.stack h'.stack
  rfl

/-- Tallies that stand behind rows stood somewhere before them. -/
theorem Stands.exists_before (h : Stands read r (before ++ rows) (stack.map (· ++ rows)) o) :
    ∃ o, Stands read r before stack o := by
  obtain ⟨totals, htotals⟩ := h.totals.exists_before
  obtain ⟨sets, hsets⟩ : ∃ sets, List.Forall₂ (Tallied read r.group) stack sets := by
    have hstack := List.forall₂_map_left_iff.1 h.stack
    clear h htotals
    generalize o.stack = sets at hstack
    induction hstack with
    | nil => exact ⟨[], .nil⟩
    | cons hset _ ih =>
      obtain ⟨set, hset⟩ := hset.exists_before
      obtain ⟨sets, hsets⟩ := ih
      exact ⟨set :: sets, .cons hset hsets⟩
  exact ⟨⟨totals, sets⟩, htotals, hsets⟩

/-- Entering rows succeeds exactly if all open tallies have a value with them. -/
theorem foldlM_enterRow_eq_ok (h : Stands read r before stack o) :
    rows.foldlM (enterRow read r) o = .ok o'
      ↔ Stands read r (before ++ rows) (stack.map (· ++ rows)) o' := by
  induction rows generalizing before stack o with
  | nil =>
    simp only [List.foldlM_nil, List.append_nil, List.map_id']
    exact ⟨fun same => Except.ok.inj same ▸ h, fun h' => congrArg Except.ok (h.unique h')⟩
  | cons row rows ih =>
    have split : Stands read r (before ++ row :: rows) (stack.map (· ++ row :: rows)) o'
        ↔ Stands read r (before ++ [row] ++ rows)
          ((stack.map (· ++ [row])).map (· ++ rows)) o' := by
      simp only [List.append_assoc, List.singleton_append, List.map_map, Function.comp_def]
    rw [List.foldlM_cons, Outcome.bind_eq_ok, split]
    constructor
    · rintro ⟨next, hnext, h'⟩
      exact (ih ((enterRow_eq_ok h).1 hnext)).1 h'
    · intro h'
      obtain ⟨next, hnext⟩ := h'.exists_before
      exact ⟨next, (enterRow_eq_ok h).2 hnext, (ih hnext).2 h'⟩

/-! ### Groups that are entered and left -/

/-- The stack after a group is opened; without summaries there is none. -/
def opened (r : Rollup) (stack : List (List α)) : List (List α) :=
  if r.group.isEmpty then stack else stack ++ [[]]

/-- A group that is entered has no rows so far. -/
theorem stands_push (h : Stands read r before stack o) :
    Stands read r before (r.opened stack) (r.push o) := by
  rw [push, opened]
  split
  · exact h
  · exact ⟨h.totals, List.rel_append h.stack (.cons Measure.tallied_nil .nil)⟩

/-- A group that is left has the values of its rows, and is no longer open. -/
theorem stands_pop (h : Stands read r before ((r.opened stack).map (· ++ rows)) o)
    (summary : Option (List Value)) :
    Gives read r.group rows summary ((r.summaryOf o).or summary)
      ∧ Stands read r before (stack.map (· ++ rows)) (r.pop o) := by
  obtain ⟨htotals, hstack⟩ := h
  rw [opened] at hstack
  rw [summaryOf, pop]
  split at hstack
  next none =>
    rw [if_pos none, if_pos none, Option.none_or]
    exact ⟨by rw [Gives, if_pos (List.isEmpty_iff.1 none)], htotals, hstack⟩
  next some =>
    rw [List.map_append, List.map_singleton, List.nil_append] at hstack
    obtain ⟨sets, set, hsets, hset, hlast⟩ := Outcome.forall₂_concat_left_iff.1 hstack
    have gives := hset.gives summary
    rw [if_neg some] at gives
    rw [if_neg some, if_neg some, hlast, List.getLast?_concat, List.dropLast_concat]
    exact ⟨gives, htotals, hsets⟩

/-- If a group has values of its rows, its tallies stood behind them before it was left. -/
theorem exists_stands_opened (h : Stands read r before (stack.map (· ++ rows)) o)
    {summary summary' : Option (List Value)} (gives : Gives read r.group rows summary summary') :
    ∃ o, Stands read r before ((r.opened stack).map (· ++ rows)) o := by
  obtain ⟨set, hset⟩ := gives.exists_tallied
  rw [opened]
  split
  next => exact ⟨o, h⟩
  next =>
    refine ⟨⟨o.totals, o.stack ++ [set]⟩, h.totals, ?_⟩
    rw [List.map_append, List.map_singleton, List.nil_append]
    exact List.rel_append h.stack (.cons hset .nil)

/-! ### The walk -/

mutual

/-- A walk gives the summaries and the tallies that the measures by themselves give. -/
theorem walk_eq_ok : (t : Subtree α) → {before : List α} → {stack : List (List α)} →
    {o o' : Open} → {t' : Subtree α} → Stands read r before stack o →
    (walk read r t o = .ok (t', o') ↔ t.Summed (Gives read r.group) t'
      ∧ Stands read r (before ++ leafRows t) (stack.map (· ++ leafRows t)) o')
  | .groups gs, before, stack, o, o', t', h => by
    rw [walk, Outcome.bind_eq_ok]
    constructor
    · rintro ⟨⟨gs', o''⟩, hgs, h'⟩
      cases h'
      obtain ⟨summed, stands⟩ := (walkGroups_eq_ok gs h).1 hgs
      exact ⟨.groups summed, stands⟩
    · rintro ⟨⟨summed⟩, stands⟩
      exact ⟨_, (walkGroups_eq_ok gs h).2 ⟨summed, stands⟩, rfl⟩
  | .rows rs, before, stack, o, o', t', h => by
    rw [walk, Outcome.bind_eq_ok]
    simp only [foldlM_enterRow_eq_ok h]
    constructor
    · rintro ⟨o'', stands, h'⟩
      cases h'
      exact ⟨.rows rs, stands⟩
    · rintro ⟨⟨⟩, stands⟩
      exact ⟨o', stands, rfl⟩
  | .dropped, before, stack, o, o', t', h => by
    simp only [walk, leafRows, List.append_nil, List.map_id']
    constructor
    · intro h'
      cases h'
      exact ⟨.dropped, h⟩
    · rintro ⟨⟨⟩, stands⟩
      rw [h.unique stands]

/-- Walking groups succeeds exactly if the measures have values over the rows of each, and leaves
the tallies of all rows so far. By induction along the groups, with the walk of what stands under
each. -/
theorem walkGroups_eq_ok : (gs : List (Group α)) → {before : List α} → {stack : List (List α)} →
    {o o' : Open} → {gs' : List (Group α)} → Stands read r before stack o →
    (walkGroups read r gs o = .ok (gs', o') ↔ SummedAll (Gives read r.group) gs gs'
      ∧ Stands read r (before ++ leafRowsOf gs) (stack.map (· ++ leafRowsOf gs)) o')
  | [], before, stack, o, o', gs', h => by
    simp only [walkGroups, leafRowsOf, List.append_nil, List.map_id']
    constructor
    · intro h'
      cases h'
      exact ⟨.nil, h⟩
    · rintro ⟨⟨⟩, stands⟩
      rw [h.unique stands]
  | .mk key items count summary :: rest, before, stack, o, o', gs', h => by
    have split : Stands read r (before ++ leafRowsOf (.mk key items count summary :: rest))
          (stack.map (· ++ leafRowsOf (.mk key items count summary :: rest))) o'
        ↔ Stands read r (before ++ leafRows items ++ leafRowsOf rest)
          ((stack.map (· ++ leafRows items)).map (· ++ leafRowsOf rest)) o' := by
      simp only [leafRowsOf, List.append_assoc, List.map_map, Function.comp_def]
    rw [walkGroups, Outcome.bind_eq_ok, split]
    constructor
    · rintro ⟨⟨items', inner⟩, hitems, h'⟩
      obtain ⟨⟨rest', o''⟩, hrest, h'⟩ := Outcome.bind_eq_ok.1 h'
      cases h'
      obtain ⟨under, stands⟩ := (walk_eq_ok items (stands_push h)).1 hitems
      obtain ⟨here, stands⟩ := stands_pop stands summary
      obtain ⟨after, stands⟩ := (walkGroups_eq_ok rest stands).1 hrest
      exact ⟨.cons under here after, stands⟩
    · rintro ⟨summed, stands⟩
      cases summed with
      | cons under here after =>
        -- the tallies between the group and those after it, and before the group is left
        obtain ⟨between, hbetween⟩ := stands.exists_before
        obtain ⟨inner, hinner⟩ := exists_stands_opened hbetween here
        obtain ⟨here', hpop⟩ := stands_pop hinner summary
        refine ⟨(_, inner), (walk_eq_ok items (stands_push h)).2 ⟨under, hinner⟩, ?_⟩
        refine Outcome.bind_eq_ok.2 ⟨_, (walkGroups_eq_ok rest hpop).2 ⟨after, stands⟩, ?_⟩
        rw [here.unique here']
        rfl

end

/-- A rollup gives a tree and totals exactly if the measures by themselves give the summaries of the
tree over the rows of each group, and the totals over all rows. -/
theorem run_eq_ok_iff {t t' : Subtree α} {totals : Option (List Value)} :
    r.run read t = .ok (t', totals) ↔ t.Summed (Gives read r.group) t'
      ∧ Gives read r.total (leafRows t) none totals := by
  have start : Stands read r ([] : List α) [] ⟨fresh r.total, []⟩ := ⟨Measure.tallied_nil, .nil⟩
  rw [run, Outcome.bind_eq_ok]
  constructor
  · rintro ⟨⟨t'', o⟩, hwalk, h⟩
    cases h
    obtain ⟨summed, stands⟩ := (walk_eq_ok t start).1 hwalk
    exact ⟨summed, stands.totals.gives none⟩
  · rintro ⟨summed, gives⟩
    obtain ⟨ts, hts⟩ := gives.exists_tallied
    have stands : Stands read r ([] ++ leafRows t) [] ⟨ts, []⟩ := ⟨hts, .nil⟩
    refine ⟨(t', ⟨ts, []⟩), (walk_eq_ok t start).2 ⟨summed, stands⟩, ?_⟩
    rw [gives.unique (hts.gives none)]
    rfl

/-- A rollup changes nothing but summaries. -/
theorem bare_run {t t' : Subtree α} {totals : Option (List Value)}
    (h : r.run read t = .ok (t', totals)) : t'.bare = t.bare :=
  Summed.bare t (run_eq_ok_iff.1 h).1

/-- A rollup leaves the rows as they are. -/
theorem leafRows_run {t t' : Subtree α} {totals : Option (List Value)}
    (h : r.run read t = .ok (t', totals)) : leafRows t' = leafRows t := by
  have same := congrArg leafRows (bare_run h)
  rwa [bare, bare, leafRows_resum, leafRows_resum] at same

/-! ### Summaries when all tallies are known -/

/-- The tally of a measure over rows with a property is a function of the rows. -/
def Tallies (read : Source → α → Except ReadError Value) (P : α → Prop)
    (tally : Measure → List α → Tally) (m : Measure) : Prop :=
  ∀ rows : List α, (∀ row ∈ rows, P row) → m.tally read rows = .ok (tally m rows)

/-- The summary of the rows of a group. -/
def summarize (tally : Measure → List α → Tally) (r : Rollup) (rows : List α) :
    Option (List Value) :=
  if r.group.isEmpty then none else some (r.group.map fun m => (tally m rows).finish)

section Known

variable {P : α → Prop} {tally : Measure → List α → Tally}

/-- The tallies of all measures of a rollup are known. -/
structure Known (read : Source → α → Except ReadError Value) (P : α → Prop)
    (tally : Measure → List α → Tally) (r : Rollup) : Prop where
  /-- those of the totals -/
  total : ∀ m ∈ r.total, Tallies read P tally m
  /-- those of each group -/
  group : ∀ m ∈ r.group, Tallies read P tally m

/-- Measures whose tallies are known have these. -/
theorem tallied_of_tallies {ms : List Measure} (h : ∀ m ∈ ms, Tallies read P tally m)
    (hrows : ∀ row ∈ rows, P row) : Tallied read ms rows (ms.map (tally · rows)) := by
  rw [Tallied, List.forall₂_map_right_iff, List.forall₂_same]
  exact fun m hm => h m hm rows hrows

/-- The summaries of groups are those of their rows, and the totals those of all rows. -/
theorem run_eq (h : Known read P tally r) {t : Subtree α} (ht : ∀ row ∈ leafRows t, P row) :
    r.run read t = .ok (t.dress (summarize tally r),
      if r.total.isEmpty then none
      else some (r.total.map fun m => (tally m (leafRows t)).finish)) := by
  refine run_eq_ok_iff.2 ⟨summed_dress (fun rows hrows summary => ?_) t ht, ?_⟩
  · have gives := (tallied_of_tallies h.group hrows).gives summary
    rw [List.map_map] at gives
    rw [summarize]
    split
    next none => rwa [if_pos none] at gives
    next some => rwa [if_neg some] at gives
  · have gives := (tallied_of_tallies h.total ht).gives none
    rwa [List.map_map] at gives

end Known

end Rollup

end DataGrid
