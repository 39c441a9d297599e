import DataGrid.Proofs.Accessor.Guarding
import DataGrid.Proofs.Rollup.Folding
import DataGrid.Proofs.Store.Cells
import DataGrid.Proofs.Summary
import DataGrid.Proofs.TypedSum

/-!
# Columns of a store and totals of a rollup

A sum or an extreme over records is computed in two ways: as a column of a flat row, by the type of
its selector, and as a total of a rollup, by the kinds of the values.

* Both read the same values (`Accessor.mapM_read_eq`), and pass over the same nulls
  (`Tally.sum_of_foldlM`, `Tally.extreme_of_foldlM`).
* One adds the values up in their type (`TypedSum`), the other in their kinds (`RunningSum`).
* They keep the same least value (`Store.leastOf_eq_bestOf`), but not the same of several greatest
  values (`Store.same_greatestOf`).

`Store.cell_total` says when the two agree.
-/

namespace DataGrid

open Resolver Subtree
open Tally (bestOf keepBetter)

/-! ### Reading -/

namespace Accessor

variable {shape : Shape} {guardNulls : Bool} {path : String} {a b : Accessor}

/-- With nulls guarded and not, a path reads the same value where it reads one. -/
theorem read_eq_of_ofPath (ha : ofPath shape guardNulls path = .ok a)
    (hb : ofPath shape true path = .ok b) {record v w : Value} (hv : a.read record = .ok v)
    (hw : b.read record = .ok w) : v = w := by
  obtain ⟨r, hr, rfl⟩ := ofPath_eq_ok ha
  obtain ⟨r', hr', rfl⟩ := ofPath_eq_ok hb
  cases hr.symm.trans hr'
  cases guardNulls with
  | true =>
    cases hv.symm.trans hw
    rfl
  | false =>
    obtain ⟨-, same | ⟨path', fails⟩⟩ := read_guards (a := ⟨path, r.steps, r.type, _, true⟩) rfl
      r.nullable record
    · rw [Bool.false_and, Bool.or_false] at hv
      cases (hw.symm.trans same.symm).trans hv
      rfl
    · rw [Bool.false_and, Bool.or_false] at hv
      cases hv.symm.trans fails

/-- Where both succeed, reading with and without guarding gives the same. -/
theorem mapM_read_eq (ha : ofPath shape guardNulls path = .ok a)
    (hb : ofPath shape true path = .ok b) {records vs ws : List Value}
    (hv : records.mapM a.read = .ok vs) (hw : records.mapM b.read = .ok ws) : vs = ws := by
  replace hv := Outcome.mapM_eq_ok.1 hv
  replace hw := Outcome.mapM_eq_ok.1 hw
  induction hv generalizing ws with
  | nil =>
    cases hw
    rfl
  | cons first _ ih =>
    cases hw with
    | cons first' rest' => rw [read_eq_of_ofPath ha hb first first', ih rest']

end Accessor

/-! ### Tallies over the values that are read -/

/-- A measure of a path folds the values at the path. -/
theorem Measure.tally_values {kind : SummaryKind} {a : Accessor} {records : List Value} {t : Tally}
    (h : (Measure.of kind (some (.accessor a))).tally Rollup.readRecord records = .ok t) :
    ∃ values, records.mapM a.read = .ok values
      ∧ values.foldlM (fun t v => t.stepWith v (.ok .null)) (Tally.start kind) = .ok t := by
  change records.foldlM _ (Tally.start kind) = Except.ok t at h
  generalize Tally.start kind = t₀ at h ⊢
  induction records generalizing t₀ with
  | nil => exact ⟨[], rfl, h⟩
  | cons record rest ih =>
    rw [List.foldlM_cons] at h
    obtain ⟨next, hnext, h⟩ := Outcome.bind_eq_ok.1 h
    obtain ⟨v, hv, hnext⟩ := Outcome.bind_eq_ok.1 hnext
    obtain ⟨values, hvalues, hfold⟩ := ih next h
    have read : (record :: rest).mapM a.read = .ok (v :: values) :=
      Outcome.mapM_eq_ok.2 (.cons hv (Outcome.mapM_eq_ok.1 hvalues))
    refine ⟨v :: values, read, ?_⟩
    rw [List.foldlM_cons]
    exact Outcome.bind_eq_ok.2 ⟨next, hnext, hfold⟩

namespace Tally

variable {values : List Value} {t : Tally}

/-- A sum adds up what is not null. -/
theorem sum_of_foldlM {total : RunningSum} {seen : Bool}
    (h : values.foldlM (fun t v => stepWith t v (.ok .null)) (sum total seen) = .ok t) :
    ∃ total', (values.filter (!·.isNull)).foldlM RunningSum.add total = .ok total'
      ∧ t = sum total' (seen || !(values.filter (!·.isNull)).isEmpty) := by
  induction values generalizing total seen with
  | nil =>
    cases h
    exact ⟨total, rfl, by rw [List.filter_nil, List.isEmpty_nil, Bool.not_true, Bool.or_false]⟩
  | cons v rest ih =>
    rw [List.foldlM_cons] at h
    obtain ⟨next, hnext, h⟩ := Outcome.bind_eq_ok.1 h
    obtain ⟨total₁, htotal₁, rfl⟩ := Outcome.map_eq_ok.1 hnext
    obtain ⟨total', htotal', rfl⟩ := ih h
    rw [addValue] at htotal₁
    cases hv : v.isNull with
    | true =>
      rw [hv, if_pos rfl] at htotal₁
      cases htotal₁
      rw [List.filter_cons_of_neg (by simp [hv]), Bool.not_true, Bool.or_false]
      exact ⟨total', htotal', rfl⟩
    | false =>
      rw [hv, if_neg Bool.false_ne_true] at htotal₁
      rw [List.filter_cons_of_pos (by simp [hv]), List.foldlM_cons]
      refine ⟨total', Outcome.bind_eq_ok.2 ⟨total₁, htotal₁, htotal'⟩, ?_⟩
      simp

/-- An extreme, the least or the greatest value, keeps the better of two. -/
theorem extreme_of_foldlM {wanted : Ordering} (kept : Option Value → Tally)
    (steps : ∀ best v, (kept best).stepWith v (.ok .null) = .ok (kept (keepBetter wanted best v)))
    {best : Option Value}
    (h : values.foldlM (fun t v => stepWith t v (.ok .null)) (kept best) = .ok t) :
    t = kept (values.foldl (keepBetter wanted) best) := by
  induction values generalizing best with
  | nil =>
    cases h
    rfl
  | cons v rest ih =>
    rw [List.foldlM_cons, steps] at h
    exact ih h

end Tally

theorem Outcome.exists_getElem?_of_forall₂ {α β : Type} {R : α → β → Prop} {xs : List α}
    {ys : List β} (h : List.Forall₂ R xs ys) {i : Nat} {x : α} (hx : xs[i]? = some x) :
    ∃ y, ys[i]? = some y ∧ R x y := by
  obtain ⟨hi, rfl⟩ := List.getElem?_eq_some_iff.1 hx
  have hi' : i < ys.length := h.length_eq ▸ hi
  exact ⟨ys[i], List.getElem?_eq_getElem hi', h.get hi hi'⟩

namespace Store

/-! ### Columns and totals -/

variable {shape : Shape} {guardNulls : Bool} {total group : List Summary} {r : Rollup}
variable {t t' : Subtree Value} {totals : List Value} {i : Nat} {s : Summary} {w : Value}

/-- A total is the fold of the measure of its summary. -/
theorem fold_of_totals (hr : Rollup.rollupOf shape guardNulls total group = .ok r)
    (hrun : r.run Rollup.readRecord t = .ok (t', some totals)) (hs : total[i]? = some s)
    (hw : totals[i]? = some w) : ∃ a?, s.resolved shape guardNulls = .ok a?
      ∧ (Rollup.recordMeasure s a?).fold Rollup.readRecord (leafRows t) = .ok w := by
  obtain ⟨hmeasures, -⟩ := Rollup.rollupOf_eq_ok.1 hr
  obtain ⟨m, hm, hmeasure⟩ := Outcome.exists_getElem?_of_forall₂ (Outcome.mapM_eq_ok.1 hmeasures) hs
  obtain ⟨a?, ha?, rfl⟩ := Outcome.map_eq_ok.1 hmeasure
  obtain ⟨-, gives⟩ := Rollup.run_eq_ok_iff.1 hrun
  rw [Measure.Gives] at gives
  split at gives
  next none => cases gives
  next =>
    obtain ⟨values, hvalues, folds⟩ := gives
    cases hvalues
    obtain ⟨w', hw', hfold⟩ := Outcome.exists_getElem?_of_forall₂ folds hm
    cases hw.symm.trans hw'
    exact ⟨a?, ha?, hfold⟩

/-- The values over which a column and a total agree: doubles are led by integers that doubles add
up exactly, and a double; greatest values that are level are one key. -/
def Agreeing (kind : SummaryKind) (type : FieldType) (values : List Value) : Prop :=
  match kind with
  | .sum => type.holdsDoubles = true → values = [] ∨ TypedSum.Led values
  | .max => ∀ v ∈ values, ∀ w ∈ values, v.order w = .eq → v.same w = true
  | _ => True

/-- A column of a selector reads its values where the selector resolves. -/
theorem resolvedColumn_eq_ok {c : Column} {rc : ResolvedColumn} {path : String}
    (hc : selectorOf? c = some path) (h : resolvedColumn shape c = .ok rc) :
    ∃ a, Accessor.ofPath shape true path = .ok a ∧ rc = ⟨c, some a⟩ := by
  simp only [resolvedColumn, hc] at h
  obtain ⟨a, ha, h⟩ := Outcome.bind_eq_ok.1 h
  cases h
  exact ⟨a, ha, rfl⟩

/-- The values of a column are what its accessor reads, without nulls. -/
theorem valuesOf_eq_ok {a : Accessor} {members values : List Value}
    (h : valuesOf (some a) members = .ok values) :
    ∃ all, members.mapM a.read = .ok all ∧ values = all.filter (!·.isNull) := by
  obtain ⟨all, hall, h⟩ := Outcome.bind_eq_ok.1 h
  cases h
  exact ⟨all, hall, rfl⟩

/-- A summary with one column is a sum or an extreme. -/
theorem columnsFor_eq_singleton {c : Column} (hc : Projection.columnsFor s = [c]) :
    s.kind = .sum ∧ c = .sum s.path ∨ s.kind = .min ∧ c = .min s.path
      ∨ s.kind = .max ∧ c = .max s.path := by
  obtain ⟨selector, kind⟩ := s
  cases kind <;> cases hc
  · exact .inl ⟨rfl, rfl⟩
  · exact .inr (.inl ⟨rfl, rfl⟩)
  · exact .inr (.inr ⟨rfl, rfl⟩)

section Agreement

variable {a b : Accessor} {path : String} {records key values : List Value} {v : Value}

/-- A total of a path folds the values that a column reads. -/
theorem tally_values (ha : Accessor.ofPath shape guardNulls path = .ok a)
    (hb : Accessor.ofPath shape true path = .ok b)
    (hvalues : valuesOf (some b) records = .ok values) {kind : SummaryKind}
    (hfold : (Measure.of kind (some (.accessor a))).fold Rollup.readRecord records = .ok w) :
    ∃ (all : List Value) (t : Tally), values = all.filter (!·.isNull) ∧ t.finish = w
      ∧ all.foldlM (fun t v => t.stepWith v (.ok .null)) (Tally.start kind) = Except.ok t := by
  obtain ⟨t, ht, rfl⟩ := Outcome.map_eq_ok.1 hfold
  obtain ⟨all, hall, hsteps⟩ := Measure.tally_values ht
  obtain ⟨all', hall', rfl⟩ := valuesOf_eq_ok hvalues
  cases Accessor.mapM_read_eq ha hb hall hall'
  exact ⟨all, t, rfl, rfl, hsteps⟩

/-- A column of a sum folds the sum of its type, and a total the running sum. -/
theorem sums_eq_ok {selector : String} {all : List Value} {total : Tally}
    (hv : sumOf selector (some b) (all.filter (!·.isNull)) = .ok v)
    (htotal : all.foldlM (fun t v => t.stepWith v (.ok .null)) (Tally.start .sum) = .ok total) :
    all.filter (!·.isNull) = [] ∧ v = .null ∧ total.finish = .null
      ∨ all.filter (!·.isNull) ≠ [] ∧ ∃ zero typed running, TypedSum.zero? b.type = some zero
        ∧ (all.filter (!·.isNull)).foldlM TypedSum.add zero = .ok typed ∧ v = typed.value
        ∧ (all.filter (!·.isNull)).foldlM RunningSum.add .empty = .ok running
        ∧ total.finish = running.value := by
  obtain ⟨running, hrunning, rfl⟩ := Tally.sum_of_foldlM htotal
  rw [sumOf] at hv
  generalize all.filter (!·.isNull) = values at hv hrunning ⊢
  cases values with
  | nil =>
    cases hv
    exact .inl ⟨rfl, rfl, rfl⟩
  | cons first rest =>
    refine .inr ⟨List.cons_ne_nil _ _, ?_⟩
    rw [List.isEmpty_cons, if_neg Bool.false_ne_true, Option.bind_some] at hv
    cases hzero : TypedSum.zero? b.type with
    | none =>
      rw [hzero] at hv
      cases hv
    | some zero =>
      rw [hzero] at hv
      obtain ⟨typed, htyped, rfl⟩ := Outcome.map_eq_ok.1 (Outcome.mapError_eq_ok.1 hv)
      exact ⟨zero, typed, running, rfl, htyped, rfl, hrunning, rfl⟩

/-- A column and a total of a sum agree over values that are not doubles, and over doubles that are
led by exact integers and a double. -/
theorem same_sums {selector : String} {all : List Value} {total : Tally}
    (hv : sumOf selector (some b) (all.filter (!·.isNull)) = .ok v)
    (htotal : all.foldlM (fun t v => t.stepWith v (.ok .null)) (Tally.start .sum) = .ok total)
    (agreeing : Agreeing .sum b.type (all.filter (!·.isNull))) :
    v.same total.finish = true := by
  rcases sums_eq_ok hv htotal with ⟨-, rfl, hfinish⟩
    | ⟨some, zero, typed, running, hzero, htyped, rfl, hrunning, hfinish⟩
  · rw [hfinish]
    rfl
  rw [hfinish]
  cases doubles : b.type.holdsDoubles with
  | false => exact TypedSum.same_of_noDouble doubles hzero some htyped hrunning
  | true =>
    obtain rfl := TypedSum.zero?_of_holdsDoubles doubles hzero
    exact TypedSum.same_of_led ((agreeing doubles).resolve_left some) htyped hrunning

/-- Over integers a column of doubles gives a double, and a total an integer. -/
theorem sums_of_ints {selector : String} {all : List Value} {total : Tally}
    (hv : sumOf selector (some b) (all.filter (!·.isNull)) = .ok v)
    (htotal : all.foldlM (fun t v => t.stepWith v (.ok .null)) (Tally.start .sum) = .ok total)
    (doubles : b.type.holdsDoubles = true) {is : List Int64}
    (his : all.filter (!·.isNull) = is.map .int) (some : is ≠ [])
    (fits : Integer.Fits (is.map Int64.toInt).sum) : v.same total.finish = false := by
  rcases sums_eq_ok hv htotal with ⟨none, -, -⟩
    | ⟨-, zero, typed, running, hzero, htyped, rfl, hrunning, hfinish⟩
  · rw [his, List.map_eq_nil_iff] at none
    exact absurd none some
  · obtain rfl := TypedSum.zero?_of_holdsDoubles doubles hzero
    rw [his] at htyped hrunning
    obtain ⟨x, i, hx, hi⟩ := TypedSum.kinds_of_ints some fits htyped hrunning
    rw [hfinish, hx, hi]
    rfl

end Agreement

variable {c : Column} {rc : ResolvedColumn} {key : List Value} {v : Value}

/-- The column of a summary and its total over the same records agree, in kind as well, over the
values that are `Agreeing`. A sum of doubles over nothing but integers is a double as a column and
an integer as a total. -/
theorem cell_total
    (hr : ((Rollup.overRecords total group).run.run (fresh shape guardNulls)).1 = .ok r)
    (hrun : r.run Rollup.readRecord t = .ok (t', some totals)) (hs : total[i]? = some s)
    (hw : totals[i]? = some w) (hc : Projection.columnsFor s = [c])
    (hrc : ((resolveColumn c).run.run (fresh shape true)).1 = .ok rc)
    (hv : cell rc key (leafRows t) = .ok v) :
    ∃ a values, rc.accessor = some a ∧ valuesOf rc.accessor (leafRows t) = .ok values
      ∧ (Agreeing s.kind a.type values → v.same w = true)
      ∧ (s.kind = .sum → a.type.holdsDoubles = true → ∀ is : List Int64, values = is.map .int →
        is ≠ [] → Integer.Fits (is.map Int64.toInt).sum → v.same w = false) := by
  rw [(Rollup.computes_overRecords total group).run_eq serves_fresh] at hr
  rw [(computes_resolveColumn c).run_eq serves_fresh] at hrc
  obtain ⟨a?, ha?, hfold⟩ := fold_of_totals hr hrun hs hw
  have column := columnsFor_eq_singleton hc
  have reads : s.kind.readsSelector = true := by
    rcases column with ⟨hkind, -⟩ | ⟨hkind, -⟩ | ⟨hkind, -⟩ <;> rw [hkind] <;> rfl
  rcases Summary.resolved_eq_ok ha? with ⟨none, -⟩ | ⟨-, path, a, hpath, ha, rfl⟩
  · cases reads.symm.trans none
  have selector : selectorOf? c = some path := by
    rw [Summary.path, hpath] at column
    rcases column with ⟨-, rfl⟩ | ⟨-, rfl⟩ | ⟨-, rfl⟩ <;> rfl
  obtain ⟨b, hb, rfl⟩ := resolvedColumn_eq_ok selector hrc
  rw [cell] at hv
  cases hvalues : valuesOf (some b) (leafRows t) with
  | error e =>
    rw [hvalues] at hv
    rcases column with ⟨-, rfl⟩ | ⟨-, rfl⟩ | ⟨-, rfl⟩ <;> cases hv
  | ok values =>
    rw [hvalues] at hv
    refine ⟨b, values, rfl, rfl, ?_⟩
    obtain ⟨all, tally, rfl, rfl, htally⟩ := tally_values ha hb hvalues hfold
    have nonnull : ∀ v ∈ all.filter (!·.isNull), v.isNull = false := fun v hv => by
      simpa using (List.mem_filter.1 hv).2
    rcases column with ⟨hkind, rfl⟩ | ⟨hkind, rfl⟩ | ⟨hkind, rfl⟩
    · rw [hkind] at htally ⊢
      refine ⟨same_sums hv htally, fun _ doubles is his some fits => ?_⟩
      exact sums_of_ints hv htally doubles his some fits
    · rw [hkind] at htally ⊢
      cases hv
      refine ⟨fun _ => ?_, fun h => by cases h⟩
      rw [Tally.extreme_of_foldlM .min (fun _ _ => rfl) htally, leastOf_eq_bestOf nonnull,
        Tally.bestOf_filter]
      exact Value.same_refl _
    · rw [hkind] at htally ⊢
      cases hv
      refine ⟨fun level => ?_, fun h => by cases h⟩
      have same := same_greatestOf nonnull level
      rw [Tally.bestOf_filter] at same
      rw [Tally.extreme_of_foldlM .max (fun _ _ => rfl) htally]
      exact same

/-- At a member of doubles, integers that a double follows have one sum. -/
theorem cell_total_led :
    let price : Accessor := ⟨"price", [.member "price" .float64 false], .float64, false, true⟩
    let records := [.int 1, .int 2, .float (Binary64.ofInt 3)].map fun v => .object [("price", v)]
    let r : Rollup := ⟨[.of .sum (some (.accessor price))], []⟩
    ∃ v w, cell ⟨.sum "price", some price⟩ [] records = .ok v
      ∧ r.run Rollup.readRecord (.rows records) = .ok (.rows records, some [w])
      ∧ v.same w = true := by
  intro price records r
  have hr : ((Rollup.overRecords [⟨some "price", .sum⟩] []).run.run
      (fresh (.mk "Order" [.mk "price" .float64 false]) true)).1 = .ok r := rfl
  have hrc : ((resolveColumn (.sum "price")).run.run
      (fresh (.mk "Order" [.mk "price" .float64 false]) true)).1
        = .ok ⟨.sum "price", some price⟩ := rfl
  obtain ⟨v, hv⟩ : ∃ v, cell ⟨.sum "price", some price⟩ [] records = .ok v := ⟨_, rfl⟩
  obtain ⟨w, hrun⟩ : ∃ w, r.run Rollup.readRecord (.rows records)
      = .ok (.rows records, some [w]) := ⟨_, rfl⟩
  obtain ⟨a, values, ha, hvalues, agree, -⟩ :=
    cell_total (i := 0) hr hrun rfl rfl rfl hrc hv
  cases ha
  have led : values = [1, 2].map .int ++ .float (Binary64.ofInt 3) :: [] := by
    cases hvalues
    rfl
  exact ⟨v, w, hv, hrun, agree fun _ => .inr ⟨_, _, _, led, by decide⟩⟩

/-- At a member of doubles, integers alone have a double as the sum of a column, and an integer as
a total. -/
theorem cell_total_ints :
    let price : Accessor := ⟨"price", [.member "price" .float64 false], .float64, false, true⟩
    let records := [.int 1, .int 2].map fun v => .object [("price", v)]
    let r : Rollup := ⟨[.of .sum (some (.accessor price))], []⟩
    ((Rollup.overRecords [⟨some "price", .sum⟩] []).run.run
        (fresh (.mk "Order" [.mk "price" .float64 false]) true)).1 = .ok r
      ∧ r.run Rollup.readRecord (.rows records) = .ok (.rows records, some [.int 3])
      ∧ ∃ x, cell ⟨.sum "price", some price⟩ [] records = .ok (.float x) :=
  ⟨rfl, rfl, _, rfl⟩

end Store

end DataGrid
