import DataGrid.Proofs.Group.Levels
import DataGrid.Proofs.Leads
import DataGrid.Proofs.Loader.Outcomes
import DataGrid.Proofs.Rollup.Kinds

/-!
# The form of answers

Whatever the backend gives, an answer that is not a mere count has the form that was asked for
(`Loader.serve_hasForm`): the totals and the summaries of all groups stand as the summaries of the
request do, without nulls for sums, and groups form a tree with the levels of the request.

* Work on records and work on flat rows are taken apart by `summarized_hasForm` and
  `regrouped_hasForm`; both build a tree with levels, let a rollup summarize it, and put in zeros.
* `Yields` takes the four ways of a loader apart; what calls give is unknown.
-/

namespace DataGrid

open Subtree (Levelled)
open Summary (Answered Fits)

/-! ### What the form is -/

/-- Records if no groups are asked for; otherwise groups with the levels of the request, each with a
count and with summaries as they are asked for. -/
def Page.HasForm (o : LoadRequest) : Page → Prop
  | records _ => o.isGrouped = false
  | groups gs => o.isGrouped = true
    ∧ Levelled (Answered Fits o.groupSummary) o.innermostCollapsed o.group.length (.groups gs)

/-- An answer has the form that a request asks for. -/
structure LoadAnswer.HasForm (o : LoadRequest) (r : LoadAnswer) : Prop where
  /-- records or groups -/
  data : r.data.HasForm o
  /-- totals, as they are asked for -/
  summary : Answered Fits o.totalSummary r.summary
  /-- no number of records unless it is asked for -/
  totalCount : o.requireTotalCount = false → r.totalCount = -1
  /-- no number of groups unless it is asked for -/
  groupCount : o.requireGroupCount = false → r.groupCount = -1

/-! ### Totals and trees -/

variable {shape : Shape} {guardNulls : Bool} {total group : List Summary}

/-- A tree with totals, as summaries ask for them. -/
structure Dressed {α : Type} (total group : List Summary) (levels : Nat) (t : Subtree α)
    (totals : Option (List Value)) : Prop where
  /-- the levels and the summaries of groups -/
  tree : Levelled (Answered Fits group) false levels t
  /-- the totals -/
  totals : Answered Fits total totals

/-- A rollup whose measures serve summaries answers them on a tree that has none so far. -/
theorem Rollup.answered_run {α : Type} {read : Source → α → Except ReadError Value} {r : Rollup}
    (hgroup : List.Forall₂ (fun s m => m.Serves s) group r.group) {levels : Nat} {t t' : Subtree α}
    {totals : Option (List Value)} (ht : Levelled (· = none) false levels t)
    (run : r.run read t = .ok (t', totals)) (resolve : SumZeros.Resolve shape guardNulls group) :
    Levelled (Answered Fits group) false levels
      (t'.resum (Option.map (SumZeros.filledAll shape guardNulls group))) := by
  obtain ⟨summed, -⟩ := Rollup.run_eq_ok_iff.1 run
  have nearly : Levelled (Answered Summary.NearlyFits group) false levels t' := by
    refine ht.summed (fun rows summary summary' none gives => ?_) summed
    rw [none] at gives
    exact gives.answered hgroup
  exact nearly.resum fun summary h => h.filled resolve

namespace Loader

/-- Records in process give a tree with as many levels as they are grouped into. -/
theorem summarized_hasForm {keys : List String} {levels : Nat}
    {build : List Accessor → Except ReadError (Subtree Value)}
    (hbuild : ∀ accessors t, accessors.length = keys.length → build accessors = .ok t →
      Levelled (· = none) false levels t)
    {result : Subtree Value × Option (List Value)}
    (h : summarized shape guardNulls total group keys build = .ok result) :
    Dressed total group levels result.1 result.2 := by
  obtain ⟨accessors, haccessors, h⟩ := Outcome.bind_eq_ok.1 h
  obtain ⟨t, ht, h⟩ := Outcome.bind_eq_ok.1 h
  obtain ⟨rollup, hrollup, h⟩ := Outcome.bind_eq_ok.1 h
  obtain ⟨⟨t', totals⟩, run, h⟩ := Outcome.bind_eq_ok.1 h
  cases h
  rw [Outcome.mapError_eq_ok] at haccessors ht hrollup run
  obtain ⟨htotal, hgroup⟩ := Rollup.rollupOf_eq_ok.1 hrollup
  have length := (Outcome.mapM_eq_ok.1 haccessors).length_eq
  have levelled := hbuild accessors t length.symm ht
  obtain ⟨-, gives⟩ := Rollup.run_eq_ok_iff.1 run
  exact ⟨Rollup.answered_run (Rollup.serve_of_measures hgroup) levelled run
    (resolve_of_measures hgroup),
    (gives.answered (Rollup.serve_of_measures htotal)).filled (resolve_of_measures htotal)⟩

end Loader

namespace Projection

theorem takeCount_concat_eq_ok {values rest : List Value} {v : Value} {n : Int64}
    (h : takeCount (values ++ [v]) = .ok (n, rest)) : v = .int n ∧ rest = values := by
  rw [takeCount, List.getLast?_concat] at h
  split at h
  next heq =>
    cases heq
    cases h
    exact ⟨rfl, List.dropLast_concat⟩
  next => cases h
  next heq => cases heq

theorem kind_measure (a : PlannedSummary) : a.measure.kind = a.kind := by
  obtain ⟨kind, position⟩ := a
  cases kind <;> rfl

theorem kind_settle (countPosition : Nat) (a : PlannedSummary) :
    (settle countPosition a).kind = a.kind := by
  rw [settle]
  split <;> rfl

/-- The measures of a plan serve the summaries that it was made for. -/
theorem serve_planned (countPosition n : Nat) (ss : List Summary) :
    List.Forall₂ (fun s m => m.Serves s) ss
      (((planned n ss).map (settle countPosition)).map PlannedSummary.measure) := by
  induction ss generalizing n with
  | nil => exact .nil
  | cons s ss ih =>
    refine .cons ?_ (ih _)
    rw [Measure.Serves, kind_measure, kind_settle, flatKind_flatKind]

/-- The totals of a plan are those of its summaries, and at the end the number of all rows. -/
theorem totals_planOf {levels : Nat} {rows : List Row} {totals : Option (List Value)}
    (h : Measure.Gives Row.read (planOf levels total group).rollup.total rows none totals) :
    ∃ values v, totals = some (values ++ [v]) ∧ List.Forall₂ Summary.NearlyFits total values
      ∧ (Measure.of .remoteCount
          (some (.position (planOf levels total group).countPosition))).fold Row.read rows
        = .ok v := by
  have split : (planOf levels total group).rollup.total
      = (((planned _ total).map (settle (planOf levels total group).countPosition)).map
          PlannedSummary.measure)
        ++ [Measure.of .remoteCount (some (.position (planOf levels total group).countPosition))] :=
    List.map_append
  rw [split, Measure.Gives, if_neg (List.append_ne_nil_of_right_ne_nil _ (List.cons_ne_nil _ _))]
    at h
  obtain ⟨all, rfl, hall⟩ := h
  obtain ⟨values, v, hvalues, hv, rfl⟩ := Outcome.forall₂_concat_left_iff.1 hall
  exact ⟨values, v, rfl, Measure.nearlyFit (serve_planned _ _ total) hvalues, hv⟩

/-- Without summaries there are no totals. -/
theorem answered_filter {values : List Value} (h : List.Forall₂ Fits total values) :
    Answered Fits total ((some values).filter (!·.isEmpty)) := by
  cases h with
  | nil => rfl
  | cons hv hvs => exact ⟨List.cons_ne_nil _ _, .cons hv hvs⟩

theorem levelled_treeOf {levels : Nat} {rows : List Row} {t : Subtree Row}
    (h : treeOf levels rows = .ok t) : Levelled (· = none) false levels t := by
  rw [treeOf] at h
  split at h
  next positive =>
    obtain ⟨gs, hgs, rfl⟩ := Outcome.map_eq_ok.1 h
    exact Grouping.levelled_byLevels positive hgs
  next none =>
    cases h
    obtain rfl : levels = 0 := Nat.eq_zero_of_not_pos none
    rfl

/-- Flat rows, whatever stands in them, give a tree with as many levels as they are grouped into. -/
theorem regrouped_hasForm {rows : List Row} {levels : Nat} {result : Regrouped}
    (h : regrouped shape guardNulls rows levels total group = .ok result) :
    ∃ t, Dressed total group levels t result.totals ∧ result.groups = groupsOf? t := by
  obtain ⟨resolveTotal, resolveGroup, t, t', totals, n, values, ht, run, hcount, rfl⟩ :=
    regrouped_eq_ok h
  obtain ⟨-, gives⟩ := Rollup.run_eq_ok_iff.1 run
  obtain ⟨values, v, rfl, fit, -⟩ := totals_planOf gives
  obtain ⟨-, rfl⟩ := takeCount_concat_eq_ok hcount
  refine ⟨_, ⟨?_, answered_filter (SumZeros.filledAll_fits resolveTotal fit)⟩, rfl⟩
  exact Rollup.answered_run (serve_planned _ _ group) (levelled_treeOf ht) run resolveGroup

end Projection

/-! ### The four ways of a loader -/

namespace Loading

variable {ε α : Type}

theorem yields_reading (outcome : Except ReadError α) :
    Yields (reading outcome : Loading ε α) fun a => outcome = .ok a := by
  intro s _
  cases outcome with
  | ok a => exact .ok rfl
  | error e => exact .error trivial

theorem yields_requesting (outcome : Except RequestError α) :
    Yields (requesting outcome : Loading ε α) fun a => outcome = .ok a := by
  intro s _
  cases outcome with
  | ok a => exact .ok rfl
  | error e => exact .error trivial

end Loading

namespace Loader

open Loading (yields_reading yields_requesting)

variable {ε : Type} (l : Loader ε)

/-- Whatever flat rows the backend gives, they are regrouped. -/
theorem yields_backendGrouping (predicate : Predicate) (grouping : List Grouping)
    (total group : List Summary) (s : Settings) :
    Yields (l.backendGrouping predicate grouping total group s) fun result => ∃ rows,
      Projection.regrouped l.backend.shape s.guardNulls rows grouping.length total group
        = .ok result.1 := by
  rw [backendGrouping_eq]
  refine Yields.any.bind fun plan _ => ?_
  refine Yields.any.bind fun rows _ => ?_
  exact (yields_requesting _).bind fun result h => .pure ⟨rows, h⟩

theorem yields_totals (o : LoadRequest) (predicate : Predicate) (s : Settings) (remote : Bool) :
    Yields (l.totals o predicate s remote) (Answered Fits o.totalSummary) := by
  rw [totals]
  split
  next none => exact .pure (List.isEmpty_iff.1 none)
  next some =>
    split
    · refine (l.yields_backendGrouping predicate [] o.totalSummary [] s).bind fun result h => ?_
      obtain ⟨rows, h⟩ := h
      obtain ⟨t, dressed, -⟩ := Projection.regrouped_hasForm h
      exact .pure dressed.totals
    · refine Yields.any.bind fun records _ => ?_
      rw [summarize_eq]
      refine (yields_requesting _).bind fun result h => ?_
      have dressed : Dressed o.totalSummary [] 0 result.1 result.2 := by
        refine summarized_hasForm (fun accessors t _ ht => ?_) h
        cases ht
        rfl
      -- totals are asked for, so there are some
      have answered := dressed.totals
      obtain ⟨t, totals⟩ := result
      cases totals with
      | none => exact absurd (List.isEmpty_iff.2 answered) some
      | some values => exact .pure answered

theorem yields_recordPage (o : LoadRequest) (plain : o.isGrouped = false) (predicate : Predicate)
    (s : Settings) (remote : Bool) :
    Yields (l.recordPage o predicate s remote) (LoadAnswer.HasForm o) := by
  refine (l.yields_totals o predicate s remote).bind fun summary hsummary => ?_
  refine Yields.any.bind fun data _ => ?_
  dsimp only
  split
  next uncounted => exact .pure ⟨plain, hsummary, fun _ => rfl, fun _ => rfl⟩
  next counted =>
    rw [Bool.not_eq_true, Bool.not_eq_false'] at counted
    have asked : ∀ n : Int, o.requireTotalCount = false → n = -1 := fun n no => by
      rw [counted] at no
      cases no
    split
    · exact .pure ⟨plain, hsummary, asked _, fun _ => rfl⟩
    · exact Yields.any.bind fun n _ => .pure ⟨plain, hsummary, asked _, fun _ => rfl⟩

theorem page_subset {α : Type} (skip : Nat) (take : Option Nat) (xs : List α) :
    page skip take xs ⊆ xs := by
  cases take with
  | none => exact List.drop_subset skip xs
  | some n => exact fun x hx => List.mem_of_mem_drop (List.mem_of_mem_take hx)

/-- A page of a tree with levels. -/
theorem hasForm_paginate {o : LoadRequest} (grouped : o.isGrouped = true) {gs : List (Group Value)}
    (h : Levelled (Answered Fits o.groupSummary) o.innermostCollapsed o.group.length (.groups gs))
    {totalCount : Int} (counts : o.requireTotalCount = false → totalCount = -1)
    {summary : Option (List Value)} (hsummary : Answered Fits o.totalSummary summary) :
    LoadAnswer.HasForm o
      { l.paginate o gs with totalCount := totalCount, summary := summary } where
  data := by
    refine ⟨grouped, ?_⟩
    have part := page_subset o.skip (o.pageSize l.config.maxTake) gs
    cases hlevels : o.group.length with
    | zero =>
      rw [hlevels] at h
      cases h
    | succ levels =>
      rw [hlevels] at h
      exact h.subset part
  summary := hsummary
  totalCount := counts
  groupCount no := if_neg (by simp [no])

theorem yields_groupsHere (o : LoadRequest) (grouped : o.isGrouped = true) (predicate : Predicate)
    (s : Settings) : Yields (l.groupsHere o predicate s) (LoadAnswer.HasForm o) := by
  refine Yields.any.bind fun records _ => ?_
  rw [summarize_eq]
  refine (yields_requesting _).bind fun result h => ?_
  have some : o.group ≠ [] := by simpa [LoadRequest.isGrouped] using grouped
  have dressed : Dressed o.totalSummary o.groupSummary o.group.length result.1 result.2 := by
    refine summarized_hasForm (fun accessors t length ht => ?_) h
    obtain ⟨gs, hgs, rfl⟩ := Outcome.map_eq_ok.1 ht
    rw [length, List.length_map] at hgs
    exact Grouping.levelled_byLevels (List.length_pos_of_ne_nil some) hgs
  obtain ⟨t, totals⟩ := result
  obtain ⟨levelled, answered⟩ := dressed
  obtain ⟨levels, hlevels⟩ := Nat.exists_eq_succ_of_ne_zero (List.length_pos_of_ne_nil some).ne'
  rw [hlevels] at levelled
  obtain ⟨gs, rfl⟩ := levelled.exists_groups
  refine .pure (l.hasForm_paginate grouped ?_ (fun no => if_neg (by simp [no])) answered)
  rw [hlevels]
  cases collapsed : o.innermostCollapsed with
  | false => exact levelled
  | true => exact levelled.dropRows

theorem yields_groupsOfBackend (o : LoadRequest) (grouped : o.isGrouped = true)
    (collapsed : o.innermostCollapsed = true) (predicate : Predicate) (s : Settings) :
    Yields (l.groupsOfBackend o predicate s) (LoadAnswer.HasForm o) := by
  refine (l.yields_backendGrouping predicate o.group o.totalSummary o.groupSummary s).bind
    fun result h => ?_
  obtain ⟨rows, h⟩ := h
  obtain ⟨t, ⟨levelled, answered⟩, hgroups⟩ := Projection.regrouped_hasForm h
  have some : o.group ≠ [] := by simpa [LoadRequest.isGrouped] using grouped
  obtain ⟨levels, hlevels⟩ := Nat.exists_eq_succ_of_ne_zero (List.length_pos_of_ne_nil some).ne'
  rw [hlevels] at levelled
  obtain ⟨gs, rfl⟩ := levelled.exists_groups
  refine (yields_reading _).bind fun gs' hcollapse => ?_
  rw [hgroups] at hcollapse
  refine .pure (l.hasForm_paginate grouped ?_ (fun no => if_neg (by simp [no])) answered)
  rw [hlevels, collapsed]
  exact levelled_collapseAll levelled hcollapse

theorem yields_load (o : LoadRequest) (whole : o.isCountQuery = false) :
    Yields (l.load o) (LoadAnswer.HasForm o) := by
  refine Yields.any.bind fun predicate _ => ?_
  simp only [whole, Bool.false_eq_true, if_false]
  split
  next plain =>
    exact l.yields_recordPage o (by simpa using plain) predicate _ _
  next grouped =>
    have grouped : o.isGrouped = true := by simpa using grouped
    split
    next remote =>
      rw [Bool.and_eq_true] at remote
      exact l.yields_groupsOfBackend o grouped remote.2 predicate _
    next => exact l.yields_groupsHere o grouped predicate _

/-- An answer that is more than a count has the form that was asked for, whatever the backend
gives. -/
theorem serve_hasForm {o : LoadRequest} (whole : o.isCountQuery = false) {cancelled : Bool}
    {registry : Option Registry} {r : LoadAnswer}
    (served : (l.serve o cancelled registry).1 = .ok r) :
    r.HasForm o :=
  (l.yields_load o whole).result served

/-- Flat rows of visits by town and day, whose fees are all missing: the sums become zeros at every
level. -/
theorem serve_hasForm_visits :
    let shape := Shape.mk "Visit" [.mk "town" .string true, .plain "day" .int32,
      .mk "fee" .int64 true]
    let row (town : Value) (day : Int64) (count : Int64) : Row :=
      ⟨[.null, town, .int day, .null, .null, .null, .null, .int count]⟩
    let rows := [row (.string "Ulm") 3 2, row .null 3 1, row (.string "Ulm") 4 (-7)]
    let backend : Backend String := ⟨shape, false, fun _ _ => .ends false (.error "no records"),
      fun _ _ => .ends false (.error "no counts"), fun _ _ => .waits false (.ends false (.ok rows))⟩
    let o : LoadRequest := { LoadRequest.everything with
      group := [.on "town", (Grouping.on "day").collapsed]
      totalSummary := [⟨some "fee", .sum⟩, .rows]
      groupSummary := [⟨some "fee", .sum⟩, ⟨some "fee", .avg⟩] }
    let leaf (day : Int64) (count : Nat) : Group Value :=
      .mk (.int day) .dropped (some count) (some [.int 0, .null])
    let r : LoadAnswer := ⟨.groups [
        .mk (.string "Ulm") (.groups [leaf 3 2, leaf 4 0]) (some 2) (some [.int 0, .null]),
        .mk .null (.groups [leaf 3 1]) (some 1) (some [.int 0, .null])],
      -1, some [.int 0, .int (-4)], -1⟩
    o.isCountQuery = false ∧ ((Loader.mk backend .standard).serve o false none).1 = .ok r
      ∧ r.HasForm o := by
  intro shape row rows backend o leaf r
  have served : ((Loader.mk backend .standard).serve o false none).1 = .ok r := rfl
  exact ⟨rfl, served, serve_hasForm _ rfl served⟩

end Loader

end DataGrid
