import DataGrid.Proofs.Grouping.Reordering
import DataGrid.Proofs.Grouping.Siblings
import DataGrid.Proofs.Loader.GroupsOfBackend
import DataGrid.Proofs.Regrouping.Entries

/-!
# Summaries of flat rows roll up

The summary of a group of flat rows is computed of the rows themselves and not of the summaries of
the groups in it. `Projection.folded_rolledUp` says that it comes of these all the same, as long as
sums and counts stay within a word, and that the order of the rows does not matter. Counts are read
from one column, but every other total has a column of its own, so that it comes of the summaries of
the outermost groups exactly if what the rows hold in both agrees: it has one sum, or one extreme
(`Projection.folded_totals_apart` is about a sum that does not).
-/

namespace DataGrid

open Tally (tallied)
open Subtree (At leafRows leafRowsOf ReorderedAll OrderFree)
open Projection (Answers)

/-- The sums and counts of the totals and of all groups stay within a word. -/
structure Projection.Within (plan : Projection) (rows : List Row)
    (groups : Option (List (Group Row))) : Prop where
  /-- those of the totals -/
  total : ∀ a ∈ plan.total, a.Fits rows
  /-- those of the groups -/
  group : ∀ gs, groups = some gs → ∀ path level, At (.groups gs) path (.groups level) →
    ∀ g ∈ level, ∀ a ∈ plan.group, a.Fits (leafRows g.items)

/-- The value in a place of summaries comes of those that the summaries of parts have there. -/
def Summary.JoinedAt (s : Summary) (i : Nat) (whole : Option (List Value))
    (parts : List (Option (List Value))) : Prop :=
  ∃ v vs, whole.bind (·[i]?) = some v ∧ parts.map (·.bind (·[i]?)) = vs.map some
    ∧ s.kind.Joins v vs

/-- Every value of summaries comes of those that the summaries of parts have in its place. -/
def Summary.Joined (ss : List Summary) (whole : Option (List Value))
    (parts : List (Option (List Value))) : Prop :=
  ∀ (i : Nat) (s : Summary), ss[i]? = some s → s.JoinedAt i whole parts

/-- What holds of the groups and the totals that rows are folded into. -/
structure Projection.RolledUp (r : Resolver) (plan : Projection) (rows : List Row) (levels : Nat)
    (ss : List Summary) (result : Regrouped) : Prop where
  /-- the summary of a group comes of those of the groups in it -/
  inner : ∀ gs, result.groups = some gs → ∀ path level, At (.groups gs) path (.groups level) →
    ∀ g ∈ level, ∀ children, g.items = .groups children →
      Summary.Joined ss g.summary (children.map Group.summary)
  /-- a total comes of the summaries of the outermost groups exactly if what it is read from agrees
  with what they are read from -/
  outermost : ∀ (i : Nat) (s : Summary) (a b : PlannedSummary), ss[i]? = some s →
    plan.total[i]? = some a → plan.group[i]? = some b → ∀ gs, result.groups = some gs →
    (s.JoinedAt i result.totals (gs.map Group.summary)
      ↔ s.kind.Agrees (Row.cells a.position rows) (Row.cells b.position rows))
  /-- a count does so in any case -/
  counts : ∀ (i : Nat) (s : Summary), ss[i]? = some s → s.kind = .count ∨ s.kind = .remoteCount →
    ∀ gs, result.groups = some gs → s.JoinedAt i result.totals (gs.map Group.summary)
  /-- the number of all rows is the sum of their counts -/
  counted : result.totalCount.toInt = Row.sumAt plan.countPosition rows
  /-- rows in another order give the same totals, the same count, and the same tree, but for the
  order and for keys that are grouped together -/
  reordered : ∀ rows' : List Row, rows'.Perm rows → ∃ result',
    folded r rows' levels ss ss = .ok result' ∧ result'.totals = result.totals
      ∧ result'.totalCount = result.totalCount
      ∧ Option.Rel (ReorderedAll fun k l => Grouping.sameKey k l = true) result.groups
        result'.groups
      ∧ ((∀ row ∈ rows, ∀ level < levels, ∀ v, keyAt row level = .ok v → v.holdsDouble = false) →
        Option.Rel (ReorderedAll Eq) result.groups result'.groups)

/-! ### Groups and totals -/

section Tree

variable {α : Type} {key : α → Nat → Value} {below : Nat} {rows : List α}
variable {S : List α → Option (List Value)} {F : Option (List Value) → Option (List Value)}

theorem Grouping.summary_of_mem_tree {level : Nat} {g : Group α}
    (h : g ∈ Grouping.tree key below level rows) : g.summary = none := by
  cases below <;> (obtain ⟨k, -, rfl⟩ := List.mem_map.1 h; rfl)

/-- In a tree of rows that is given summaries, that of a group is made of its rows. -/
theorem Grouping.summary_of_place {path : List Value} {level : List (Group α)}
    (h : At (((Subtree.groups (Grouping.tree key below 0 rows)).dress S).resum F) path
      (.groups level)) : ∀ g ∈ level, g.summary = F (S (leafRows g.items)) := by
  obtain ⟨u, hu, same⟩ := (Subtree.maps_resum F).exists_at h
  obtain ⟨u', place, rfl⟩ := (Subtree.maps_dress S).exists_at hu
  obtain ⟨dressed, hdressed⟩ := (Subtree.maps_resum F).exists_groups same.symm
  obtain ⟨bare, rfl⟩ := (Subtree.maps_dress S).exists_groups hdressed
  rw [(Subtree.maps_dress S).groups, (Subtree.maps_resum F).groups, List.map_map] at same
  obtain rfl := Subtree.groups.inj same
  intro g hg
  obtain ⟨g, hbare, rfl⟩ := List.mem_map.1 hg
  rw [Grouping.groups_of_place place] at hbare
  have summary : (Group.dress S g).summary = S (leafRows g.items) := by
    show (S (leafRows g.items)).or g.summary = S (leafRows g.items)
    rw [Grouping.summary_of_mem_tree hbare, Option.or_none]
  have rows : leafRows ((g.items.dress S).resum F) = leafRows g.items :=
    (Subtree.leafRows_resum F _).trans (Subtree.leafRows_dress S _)
  show F (Group.dress S g).summary = F (S (leafRows ((g.items.dress S).resum F)))
  rw [summary, rows]

/-- The rows under groups are those under each of them. -/
theorem Subtree.leafRowsOf_eq_flatten (gs : List (Group α)) :
    leafRowsOf gs = (gs.map fun g => leafRows g.items).flatten := by
  rw [← List.flatMap_def]
  exact (congrArg leafRowsOf (List.map_id gs).symm).trans (Subtree.leafRowsOf_map id gs)

end Tree

namespace Projection

variable {shape : Shape} {guardNulls : Bool} {levels : Nat} {ss : List Summary}
variable {plan : Projection} {rows rows' : List Row} {gs : List (Group Row)}

/-- The summary of the rows of a group, with zeros in place of null sums. -/
def summaryOver (shape : Shape) (guardNulls : Bool) (plan : Projection) (ss : List Summary)
    (rows : List Row) : Option (List Value) :=
  (Rollup.summarize (tallied Row.read) plan.rollup rows).map
    (SumZeros.filledAll shape guardNulls ss)

theorem getElem?_filledAll {values : List Value} {i : Nat} {s : Summary} {v : Value}
    (hs : ss[i]? = some s) (hv : values[i]? = some v) :
    (SumZeros.filledAll shape guardNulls ss values)[i]?
      = some (SumZeros.filled shape guardNulls s v) := by
  induction ss generalizing values i with
  | nil => cases hs
  | cons s' ss ih =>
    cases values with
    | nil => cases hv
    | cons v' values =>
      cases i with
      | zero =>
        cases hs
        cases hv
        rfl
      | succ i => exact ih hs hv

/-- Each summary has an entry of the plan that computes it. -/
theorem exists_answers {as : List PlannedSummary} (answers : List.Forall₂ (Answers plan) ss as)
    {i : Nat} {s : Summary} (hs : ss[i]? = some s) : ∃ a, as[i]? = some a ∧ Answers plan s a := by
  induction answers generalizing i with
  | nil => cases hs
  | @cons s' a ss as first _ ih =>
    cases i with
    | zero =>
      cases hs
      exact ⟨a, rfl, first⟩
    | succ i => exact ih hs

/-- The value in a place of a group's summary is that of its entry, filled in. -/
theorem getElem?_summaryOver {i : Nat} {s : Summary} {a : PlannedSummary} (hs : ss[i]? = some s)
    (ha : plan.group[i]? = some a) (rows : List Row) :
    (summaryOver shape guardNulls plan ss rows).bind (·[i]?)
      = some (a.filledOver shape guardNulls s rows) := by
  have some : plan.rollup.group.isEmpty = false := by
    rw [rollup, List.isEmpty_map, List.isEmpty_eq_false_iff]
    rintro none
    rw [none] at ha
    cases ha
  rw [summaryOver, Rollup.summarize, some]
  refine getElem?_filledAll hs ?_
  rw [rollup, List.map_map, List.getElem?_map, ha]
  rfl

/-- The value that an entry has for a summary over the rows of groups comes of those in the
summaries of the groups exactly if what the entry reads agrees with what the groups read. -/
theorem joinedAt_iff (resolve : SumZeros.Resolve shape guardNulls ss)
    (words : ∀ s ∈ ss, s.SumsWords shape guardNulls) {level : List (Group Row)}
    (summaries : ∀ g ∈ level, g.summary = summaryOver shape guardNulls plan ss (leafRows g.items))
    (each : ∀ g ∈ level, ∀ a ∈ plan.group, a.Fits (leafRows g.items))
    (perm : (leafRowsOf level).Perm rows) (merges : ∀ row ∈ rows, row.Merges plan) {i : Nat}
    {s : Summary} {a b : PlannedSummary} (hs : ss[i]? = some s) (ha : Answers plan s a)
    (whole : a.Fits rows) (hb : plan.group[i]? = some b) (answers : Answers plan s b)
    {told : Option (List Value)}
    (htold : told.bind (·[i]?) = some (a.filledOver shape guardNulls s rows)) :
    s.JoinedAt i told (level.map Group.summary)
      ↔ s.kind.Agrees (Row.cells a.position rows) (Row.cells b.position rows) := by
  have values : (level.map Group.summary).map (·.bind (·[i]?)) = ((level.map
      fun g => leafRows g.items).map (b.filledOver shape guardNulls s)).map some := by
    rw [List.map_map, List.map_map, List.map_map]
    refine List.map_congr_left fun g hg => ?_
    rw [Function.comp_apply, summaries g hg]
    exact getElem?_summaryOver hs hb _
  have fits : ∀ p ∈ level.map fun g => leafRows g.items, b.Fits p := by
    intro p hp
    obtain ⟨g, hg, rfl⟩ := List.mem_map.1 hp
    exact each g hg b (List.mem_of_getElem? hb)
  rw [Subtree.leafRowsOf_eq_flatten] at perm
  rw [← ha.joins_iff answers (resolve s (List.mem_of_getElem? hs))
    (words s (List.mem_of_getElem? hs)) perm merges whole fits]
  constructor
  · rintro ⟨v, vs, hv, hvs, joins⟩
    rw [htold] at hv
    rw [values] at hvs
    cases hv
    rwa [List.map_injective_iff.2 (fun _ _ => Option.some.inj) hvs]
  · intro joins
    exact ⟨_, _, htold, values, joins⟩

/-- The summary of a group does not hang on the order of its rows. -/
theorem orderFree_summarize (laidOut : LaidOut levels ss ss plan) :
    OrderFree (·.Merges plan) (Rollup.summarize (tallied Row.read) plan.rollup) := by
  intro part part' merges perm
  have values : plan.rollup.group.map (fun m => (tallied Row.read m part').finish)
      = plan.rollup.group.map fun m => (tallied Row.read m part).finish := by
    rw [rollup, List.map_map, List.map_map]
    refine List.map_congr_left fun a ha => ?_
    obtain ⟨s, answers⟩ := exists_answered laidOut.group a ha
    exact answers.valueOver_perm merges perm
  rw [Rollup.summarize, Rollup.summarize, values]

/-- The values of the totals do not hang on the order of rows. -/
theorem totals_perm (laidOut : LaidOut levels ss ss plan) (merges : ∀ row ∈ rows, row.Merges plan)
    (perm : rows'.Perm rows) : plan.rollup.total.map (fun m => (tallied Row.read m rows').finish)
      = plan.rollup.total.map fun m => (tallied Row.read m rows).finish := by
  rw [rollup, List.map_map, List.map_map]
  refine List.map_congr_left fun a ha => ?_
  obtain ⟨s, answers⟩ := exists_answered laidOut.total a ha
  exact answers.valueOver_perm merges perm

/-- The totals of a plan end in the number of all rows. -/
theorem exists_total_concat (laidOut : LaidOut levels ss ss plan) :
    ∃ front, plan.total = front ++ [⟨.remoteCount, plan.countPosition⟩]
      ∧ List.Forall₂ (Answers plan) ss front
      ∧ plan.columns[plan.countPosition]? = some .rowCount := by
  obtain ⟨front, last, answers, counts, total⟩ :=
    Outcome.forall₂_concat_left_iff.1 laidOut.total
  cases counts with
  | count hc => exact ⟨front, total, answers, hc⟩

/-- Each summary has an entry among the totals, whose value stands in its place. -/
theorem exists_total (laidOut : LaidOut levels ss ss plan) {values : List Value} {n : Int64}
    (htotals : plan.rollup.total.map (fun m => (tallied Row.read m rows).finish)
      = values ++ [.int n]) {i : Nat} {s : Summary} (hs : ss[i]? = some s) :
    ∃ a, plan.total[i]? = some a ∧ Answers plan s a ∧ values[i]? = some (a.valueOver rows) := by
  obtain ⟨front, total, answers, -⟩ := exists_total_concat laidOut
  rw [rollup, total, List.map_map, List.map_append] at htotals
  obtain ⟨rfl, -⟩ := List.append_inj' htotals rfl
  obtain ⟨a, ha, answer⟩ := exists_answers answers hs
  refine ⟨a, ?_, answer, ?_⟩
  · rw [total, List.getElem?_append_left (List.getElem?_eq_some_iff.1 ha).1, ha]
  · rw [List.getElem?_map, ha]
    rfl

/-- The last value of the totals is the sum of the counts of all rows. -/
theorem toInt_totalCount (laidOut : LaidOut levels ss ss plan)
    (merges : ∀ row ∈ rows, row.Merges plan) (fits : ∀ a ∈ plan.total, a.Fits rows)
    {values : List Value} {n : Int64}
    (htotals : plan.rollup.total.map (fun m => (tallied Row.read m rows).finish)
      = values ++ [.int n]) : n.toInt = Row.sumAt plan.countPosition rows := by
  obtain ⟨front, total, -, hc⟩ := exists_total_concat laidOut
  have last : ⟨.remoteCount, plan.countPosition⟩ ∈ plan.total := by
    rw [total]
    exact List.mem_append_right _ List.mem_cons_self
  have within := fits _ last
  have whole : Integer.Fits (Row.sumAt plan.countPosition rows) := within (.inr rfl)
  rw [rollup, total, List.map_map, List.map_append] at htotals
  obtain ⟨-, same⟩ := List.append_inj' htotals rfl
  have count : PlannedSummary.valueOver ⟨.remoteCount, plan.countPosition⟩ rows = .int n :=
    (List.cons.inj same).1
  rw [PlannedSummary.valueOver_count_of_fits merges hc rfl whole] at count
  cases count
  exact Integer.toInt_ofInt_of_fits whole

/-- Keys of rows that are grouped together agree, if equality of them is asked for only where there
are no doubles. -/
theorem agree_rowKey (free : ∀ row ∈ rows, ∀ level < levels, ∀ v, keyAt row level = .ok v →
    v.holdsDouble = false) (below : Nat) :
    Grouping.Agree Eq (Loader.rowKey levels) below 0 rows := by
  have key : ∀ row ∈ rows, ∀ l, (Loader.rowKey levels row l).holdsDouble = false := by
    intro row hrow l
    rw [Loader.rowKey]
    split
    next below =>
      cases hget : row.get (l + 1) with
      | ok v =>
        rw [Tally.valueIn, Tally.readOptional, Row.read, hget]
        exact free row hrow l below v hget
      | error e =>
        rw [Tally.valueIn, Tally.readOptional, Row.read, hget]
        rfl
    next => rfl
  intro row hrow row' hrow' l _ _ same
  exact Grouping.eq_of_sameKey (key row hrow l) (key row' hrow' l) same

/-- Rows that hold a key for every level form no tree, if there are no levels, or that of the
keys. -/
theorem treeOf_cases (held : ∀ row ∈ rows, levels + 1 ≤ row.width) {t : Subtree Row}
    (ht : treeOf levels rows = .ok t) : levels = 0 ∧ t = .rows rows
      ∨ 0 < levels ∧ t = .groups (Grouping.tree (Loader.rowKey levels) (levels - 1) 0 rows) := by
  rcases Nat.eq_zero_or_pos levels with rfl | positive
  · cases ht
    exact .inl ⟨rfl, rfl⟩
  · have keys : ∀ row ∈ rows, ∀ level < levels, ∃ v, row.get (level + 1) = .ok v :=
      fun row hrow level below => Row.get_of_lt (by have := held row hrow; omega)
    rw [Loader.treeOf_rows positive keys] at ht
    cases ht
    exact .inr ⟨positive, rfl⟩

/-- Rows in another order form a tree that is one with summaries, but for the order. -/
theorem rel_groupsOf {K : Value → Value → Prop} {S : List Row → Option (List Value)}
    {F : Option (List Value) → Option (List Value)} {t t' : Subtree Row}
    (free : OrderFree (·.Merges plan) S) (merges : ∀ row ∈ rows, row.Merges plan)
    (agree : Grouping.Agree K (Loader.rowKey levels) (levels - 1) 0 rows) (perm : rows'.Perm rows)
    (held : ∀ row ∈ rows, levels + 1 ≤ row.width) (ht : treeOf levels rows = .ok t)
    (ht' : treeOf levels rows' = .ok t') :
    Option.Rel (ReorderedAll K) (groupsOf? ((t.dress S).resum F))
      (groupsOf? ((t'.dress S).resum F)) := by
  have leaves := leafRows_treeOf_perm ht
  rcases treeOf_cases held ht with ⟨rfl, rfl⟩ | ⟨positive, rfl⟩
  · cases ht'
    exact .none
  · have held' : ∀ row ∈ rows', levels + 1 ≤ row.width := fun row h => held row (perm.mem_iff.1 h)
    rcases treeOf_cases held' ht' with ⟨rfl, -⟩ | ⟨-, rfl⟩
    · cases positive
    · have trees := Grouping.reorderedAll_tree agree perm
      have merges' : ∀ row ∈ leafRowsOf (Grouping.tree (Loader.rowKey levels) (levels - 1) 0 rows),
          row.Merges plan := fun row h => merges row (leaves.mem_iff.1 h)
      exact .some ((trees.dressAll free _ merges').resumAll F _)

/-- A value of the totals that are told. -/
theorem getElem?_totals {values : List Value} {i : Nat} {v : Value} (hv : values[i]? = some v) :
    ((some values).filter (!·.isEmpty)).bind (·[i]?) = some v := by
  cases values with
  | nil => cases hv
  | cons w values => exact hv

/-- The groups that rows are folded into have the rows as their leaves, and summaries made of
them. -/
structure Summarized (shape : Shape) (guardNulls : Bool) (plan : Projection) (ss : List Summary)
    (rows : List Row) (gs : List (Group Row)) : Prop where
  /-- the leaves -/
  leaves : (leafRowsOf gs).Perm rows
  /-- the summaries -/
  summary : ∀ path level, At (.groups gs) path (.groups level) → ∀ g ∈ level,
    g.summary = summaryOver shape guardNulls plan ss (leafRows g.items)

/-- The rows under groups at a place of a tree are rows of the tree. -/
theorem Summarized.merges (h : Summarized shape guardNulls plan ss rows gs)
    (merges : ∀ row ∈ rows, row.Merges plan) {path : List Value} {level : List (Group Row)}
    (place : At (.groups gs) path (.groups level)) : ∀ row ∈ leafRowsOf level, row.Merges plan :=
  fun row hrow => merges row (h.leaves.mem_iff.1 (place.mem_leafRows hrow))

theorem summarized_of_treeOf {t : Subtree Row} (held : ∀ row ∈ rows, levels + 1 ≤ row.width)
    (ht : treeOf levels rows = .ok t)
    (hgs : groupsOf? ((t.dress (Rollup.summarize (tallied Row.read) plan.rollup)).resum
      (Option.map (SumZeros.filledAll shape guardNulls ss))) = some gs) :
    Summarized shape guardNulls plan ss rows gs := by
  rcases treeOf_cases held ht with ⟨-, rfl⟩ | ⟨-, rfl⟩
  · cases hgs
  · cases hgs
    refine ⟨?_, fun path level place => Grouping.summary_of_place place⟩
    rw [Subtree.leafRowsOf_resumAll, Subtree.leafRowsOf_dressAll]
    exact leafRows_treeOf_perm ht

section Folded

variable (resolve : SumZeros.Resolve shape guardNulls ss)
variable (words : ∀ s ∈ ss, s.SumsWords shape guardNulls) (laidOut : LaidOut levels ss ss plan)
variable (merges : ∀ row ∈ rows, row.Merges plan)
variable (within : Within plan rows (some gs))

include resolve words laidOut merges within

/-- The summary of a group comes of those of the groups in it. -/
theorem joined_inner (h : Summarized shape guardNulls plan ss rows gs) {path : List Value}
    {level children : List (Group Row)} (place : At (.groups gs) path (.groups level))
    {g : Group Row} (hg : g ∈ level) (hitems : g.items = .groups children) :
    Summary.Joined ss g.summary (children.map Group.summary) := by
  intro i s hs
  obtain ⟨a, ha, answers⟩ := exists_answers laidOut.group hs
  have below := place.concat hg
  have whole := within.group gs rfl path level place g hg a (List.mem_of_getElem? ha)
  rw [hitems] at below whole
  refine (joinedAt_iff resolve words (h.summary _ _ below) (within.group gs rfl _ _ below) (.refl _)
    (h.merges merges below) hs answers whole ha answers ?_).2 (s.kind.agrees_refl _)
  rw [h.summary path level place g hg, hitems]
  exact getElem?_summaryOver hs ha _

/-- A total comes of the summaries of the outermost groups exactly if what it is read from agrees
with what they are read from. -/
theorem joined_outermost_iff (h : Summarized shape guardNulls plan ss rows gs) {i : Nat}
    {s : Summary} {a b : PlannedSummary} (hs : ss[i]? = some s) (ha : plan.total[i]? = some a)
    (hb : plan.group[i]? = some b) {values : List Value} {n : Int64}
    (htotals : plan.rollup.total.map (fun m => (tallied Row.read m rows).finish)
      = values ++ [.int n]) :
    s.JoinedAt i ((some (SumZeros.filledAll shape guardNulls ss values)).filter (!·.isEmpty))
        (gs.map Group.summary)
      ↔ s.kind.Agrees (Row.cells a.position rows) (Row.cells b.position rows) := by
  obtain ⟨a', ha', answers, told⟩ := exists_total laidOut htotals hs
  cases ha.symm.trans ha'
  obtain ⟨b', hb', answersGroup⟩ := exists_answers laidOut.group hs
  cases hb.symm.trans hb'
  exact joinedAt_iff resolve words (h.summary _ _ (.here _)) (within.group gs rfl _ _ (.here _))
    h.leaves merges hs answers (within.total a (List.mem_of_getElem? ha)) hb answersGroup
    (getElem?_totals (getElem?_filledAll hs told))

/-- A count does so, since it is read from the column that the groups read. -/
theorem joined_counts (h : Summarized shape guardNulls plan ss rows gs) {i : Nat} {s : Summary}
    (hs : ss[i]? = some s) (counts : s.kind = .count ∨ s.kind = .remoteCount)
    {values : List Value} {n : Int64}
    (htotals : plan.rollup.total.map (fun m => (tallied Row.read m rows).finish)
      = values ++ [.int n]) :
    s.JoinedAt i ((some (SumZeros.filledAll shape guardNulls ss values)).filter (!·.isEmpty))
      (gs.map Group.summary) := by
  obtain ⟨a, ha, answers, -⟩ := exists_total laidOut htotals hs
  obtain ⟨b, hb, answersGroup⟩ := exists_answers laidOut.group hs
  have position {e : PlannedSummary} (h : Answers plan s e) : e.position = plan.countPosition := by
    rcases counts with kind | kind <;> cases h <;> first | rfl | cases kind
  refine (joined_outermost_iff resolve words laidOut merges within h hs ha hb htotals).2 ?_
  rw [position answers, position answersGroup]
  exact s.kind.agrees_refl _

end Folded

/-- What flat rows are folded into rolls up, and does not hang on their order. -/
theorem folded_rolledUp {r : Resolver} (serves : r.Serves shape guardNulls)
    (hplan : made r levels ss ss = .ok plan) {result : Regrouped}
    (hresult : folded r rows levels ss ss = .ok result)
    (words : ∀ s ∈ ss, s.SumsWords shape guardNulls) (merges : ∀ row ∈ rows, row.Merges plan)
    (within : Within plan rows result.groups) : RolledUp r plan rows levels ss result := by
  have hplan := planned?_of_made serves hplan
  have laidOut := laidOut_of_planned hplan
  have resolve : SumZeros.Resolve shape guardNulls ss := (planned?_eq_ok.1 hplan).1
  rw [folded_eq serves] at hresult
  have wide := wide_of_regrouped hplan hresult
  have held : ∀ row ∈ rows, levels + 1 ≤ row.width := fun row hrow =>
    Nat.le_trans (levels_lt_width laidOut) (wide row hrow)
  have fills : ∀ row ∈ rows, row.Fills plan := fun row hrow =>
    ⟨wide row hrow, (merges row hrow).added⟩
  obtain ⟨t, values, n, ht, htotals, closed⟩ := regrouped_of_fills hplan fills
  rw [totals_perm laidOut merges (leafRows_treeOf_perm ht)] at htotals
  cases hresult.symm.trans closed
  refine ⟨fun gs hgs path level place g hg children hitems => ?_,
    fun i s a b hs ha hb gs hgs => ?_, fun i s hs counts gs hgs => ?_,
    toInt_totalCount laidOut merges within.total htotals, fun rows' perm => ?_⟩
  · rw [hgs] at within
    have summarized := summarized_of_treeOf held ht hgs
    exact joined_inner resolve words laidOut merges within summarized place hg hitems
  · rw [hgs] at within
    have summarized := summarized_of_treeOf held ht hgs
    exact joined_outermost_iff resolve words laidOut merges within summarized hs ha hb htotals
  · rw [hgs] at within
    have summarized := summarized_of_treeOf held ht hgs
    exact joined_counts resolve words laidOut merges within summarized hs counts htotals
  · have fills' : ∀ row ∈ rows', row.Fills plan := fun row hrow => fills row (perm.mem_iff.1 hrow)
    obtain ⟨t', values', n', ht', htotals', closed'⟩ := regrouped_of_fills hplan fills'
    rw [totals_perm laidOut merges ((leafRows_treeOf_perm ht').trans perm), htotals] at htotals'
    obtain ⟨rfl, same⟩ := List.append_inj' htotals' rfl
    cases same
    have free := orderFree_summarize laidOut
    refine ⟨_, (folded_eq serves).trans closed', rfl, rfl, ?_, fun doubles => ?_⟩
    · exact rel_groupsOf free merges (fun _ _ _ _ _ _ _ same => same) perm held ht ht'
    · exact rel_groupsOf free merges (agree_rowKey doubles _) perm held ht ht'

/-- Visits by town and month: sizes add up from months to towns, a month without sizes counts as
zero and has no greatest size, and the rows can come in any order. -/
theorem folded_rolledUp_two_levels :
    let shape := Shape.mk "Visit" [.plain "town" .string, .plain "month" .string,
      .plain "size" .int32]
    let r := Resolver.fresh shape false
    let ss : List Summary := [⟨some "size", .sum⟩, ⟨some "size", .max⟩, .rows]
    let plan : Projection := {
      groupCount := 2
      columns := [.record, .key 0, .key 1, .sum "size", .max "size", .sum "size", .max "size",
        .rowCount]
      total := [⟨.sum, 3⟩, ⟨.max, 4⟩, ⟨.remoteCount, 7⟩, ⟨.remoteCount, 7⟩]
      group := [⟨.sum, 5⟩, ⟨.max, 6⟩, ⟨.remoteCount, 7⟩]
      countPosition := 7 }
    let may : Row := ⟨[.null, .string "Ulm", .string "May", .int 8, .int 5, .int 8, .int 5, .int 2]⟩
    let june : Row := ⟨[.null, .string "Ulm", .string "June", .null, .null, .null, .null, .int 1]⟩
    let rows : List Row := [may, june]
    let result : Regrouped := {
      groups := some [.mk (.string "Ulm") (.groups [
        .mk (.string "May") (.rows [may]) (some 1) (some [.int 8, .int 5, .int 2]),
        .mk (.string "June") (.rows [june]) (some 1) (some [.int 0, .null, .int 1])]) (some 2)
          (some [.int 8, .int 5, .int 3])]
      totals := some [.int 8, .int 5, .int 3]
      totalCount := 3 }
    r.Serves shape false ∧ made r 2 ss ss = .ok plan ∧ folded r rows 2 ss ss = .ok result
      ∧ (∀ s ∈ ss, s.SumsWords shape false) ∧ (∀ row ∈ rows, row.Merges plan)
      ∧ Within plan rows result.groups ∧ RolledUp r plan rows 2 ss result := by
  intro shape r ss plan may june rows result
  have made : made r 2 ss ss = .ok plan := rfl
  have folded : folded r rows 2 ss ss = .ok result := rfl
  have words : ∀ s ∈ ss, s.SumsWords shape false := by
    intro s hs sum x a hx ha
    simp only [ss, List.mem_cons, List.not_mem_nil, or_false] at hs
    rcases hs with rfl | rfl | rfl <;> cases sum
    cases hx
    cases ha
    rfl
  have merges : ∀ row ∈ rows, row.Merges plan := by
    intro row hrow
    simp only [rows, List.mem_cons, List.not_mem_nil, or_false] at hrow
    rcases hrow with rfl | rfl <;> refine ⟨fun n c v hc added hv => ?_,
        fun n c i hc counted hv => ?_, fun n c v hc extreme hv => ?_⟩ <;>
      rcases n with _ | _ | _ | _ | _ | _ | _ | _ | n <;> cases hc <;> cases hv <;> first
        | exact .inl rfl
        | exact .inr ⟨_, rfl⟩
        | rfl
        | decide
        | contradiction
  have within : Within plan rows result.groups := by
    refine ⟨by decide, fun gs hgs path level place => ?_⟩
    cases hgs
    -- groups stand at the top and under the town, and rows under the months
    cases place with
    | here => decide
    | under hg place =>
      obtain rfl := List.mem_singleton.1 hg
      cases place with
      | here => decide
      | under hg place =>
        simp only [List.mem_cons, List.not_mem_nil, or_false] at hg
        rcases hg with rfl | rfl <;> cases place
  exact ⟨Resolver.serves_fresh, made, folded, words, merges, within,
    folded_rolledUp Resolver.serves_fresh made folded words merges within⟩

/-- One visit with a size of one among the totals and of two among the summaries of groups: the
total is not the sum over the towns. -/
theorem folded_totals_apart :
    let shape := Shape.mk "Visit" [.plain "town" .string, .plain "size" .int32]
    let r := Resolver.fresh shape false
    let ss : List Summary := [⟨some "size", .sum⟩]
    let plan : Projection := {
      groupCount := 1
      columns := [.record, .key 0, .sum "size", .sum "size", .rowCount]
      total := [⟨.sum, 2⟩, ⟨.remoteCount, 4⟩]
      group := [⟨.sum, 3⟩]
      countPosition := 4 }
    let rows : List Row := [⟨[.null, .string "Ulm", .int 1, .int 2, .int 1]⟩]
    let gs : List (Group Row) := [.mk (.string "Ulm") (.rows rows) (some 1) (some [.int 2])]
    let result : Regrouped := ⟨some gs, some [.int 1], 1⟩
    r.Serves shape false ∧ made r 1 ss ss = .ok plan ∧ folded r rows 1 ss ss = .ok result
      ∧ (∀ s ∈ ss, s.SumsWords shape false) ∧ (∀ row ∈ rows, row.Merges plan)
      ∧ Within plan rows result.groups
      ∧ ¬ Summary.Joined ss result.totals (gs.map Group.summary) := by
  intro shape r ss plan rows gs result
  refine ⟨Resolver.serves_fresh, rfl, rfl, fun s hs _ x a hx ha => ?_, fun row hrow => ?_,
    ⟨by decide, fun gs hgs path level place => ?_⟩, fun joined => ?_⟩
  · obtain rfl := List.mem_singleton.1 hs
    cases hx
    cases ha
    rfl
  · obtain rfl := List.mem_singleton.1 hrow
    refine ⟨fun n c v hc added hv => ?_, fun n c i hc counted hv => ?_,
        fun n c v hc extreme hv => ?_⟩ <;>
      rcases n with _ | _ | _ | _ | _ | n <;> cases hc <;> cases hv <;> first
        | exact .inr ⟨_, rfl⟩
        | decide
        | contradiction
  · cases hgs
    cases place with
    | here => decide
    | under hg place =>
      obtain rfl := List.mem_singleton.1 hg
      cases place
  · obtain ⟨v, vs, hv, hvs, joins⟩ := joined 0 _ rfl
    obtain ⟨i, is, rfl, rfl, sum⟩ := joins
    cases hv
    rcases is with _ | ⟨j, _ | _⟩ <;> cases hvs
    exact absurd sum (by decide)

end Projection

end DataGrid
