import DataGrid.Proofs.Merging
import DataGrid.Proofs.Value.Blurring
import DataGrid.Proofs.Value.Sameness
import DataGrid.Store

/-!
# The extremes of a store

A store keeps an extreme by a fold of its own. Its least value is the first of several that are
level, as that of a rollup is (`Store.leastOf_eq_bestOf`). Its greatest value is the last of them,
and that of a rollup the first: they are one key if all values that are level are
(`Store.same_greatestOf`), and one value if the values are exact (`Store.greatestOf_eq`).
-/

namespace DataGrid

open Tally (bestOf keepBetter isExact_bestOf)

/-- Doubles that are one key come out alike against every double. -/
theorem Binary64.compare?_congr {x y : Binary64} (h : x.same y = true) (z : Binary64) :
    x.compare? z = y.compare? z := by
  rw [same] at h
  rw [compare?, compare?]
  cases hx : x.isNaN <;> cases hy : y.isNaN <;> rw [hx, hy] at h
  · have ranks : x.rank = y.rank := by simpa using h
    rw [ranks]
  · cases h
  · cases h
  · rfl

/-- Values that are one key come out alike against every value. -/
theorem Value.order_congr {v v' : Value} (h : v.same v' = true) (w : Value) :
    v.order w = v'.order w := by
  cases v with
  | float x =>
    cases v' with
    | float y =>
      cases w with
      | int i => exact congrArg (Option.getD · .eq) (Binary64.compare?_congr h _)
      | float z => exact congrArg (Option.getD · .eq) (Binary64.compare?_congr h _)
      | _ => rfl
    | _ => cases h
  | array _ | object _ =>
    cases v' <;> cases w <;> first
      | rfl
      | cases h
  | _ => rw [(same_eq_true_iff rfl).1 h]

namespace Store

/-- The lesser of two values is kept alike. -/
theorem foldl_lesser {values : List Value} (nonnull : ∀ v ∈ values, v.isNull = false) (v : Value) :
    values.foldl (keepBetter .lt) (some v)
      = some (values.foldl (fun least w => if least.order w = .gt then w else least) v) := by
  induction values generalizing v with
  | nil => rfl
  | cons w rest ih =>
    obtain ⟨hw, nonnull⟩ := List.forall_mem_cons.1 nonnull
    have step : keepBetter .lt (some v) w = some (if v.order w = .gt then w else v) := by
      simp only [keepBetter, hw, Bool.false_eq_true, if_false, Value.order_swap w v,
        Ordering.swap_eq_lt]
      split <;> rfl
    rw [List.foldl_cons, List.foldl_cons, step, ih nonnull]

/-- A least value is the first of several. -/
theorem leastOf_eq_bestOf {values : List Value} (nonnull : ∀ v ∈ values, v.isNull = false) :
    leastOf values = bestOf .lt values := by
  cases values with
  | nil => rfl
  | cons v rest =>
    obtain ⟨hv, nonnull⟩ := List.forall_mem_cons.1 nonnull
    rw [bestOf, List.foldl_cons, keepBetter, hv, if_neg Bool.false_ne_true]
    simp only [foldl_lesser nonnull, Option.getD_some]
    rfl

/-- The greater of two values is kept alike but for values that are level. -/
theorem foldl_greater {all : List Value}
    (level : ∀ v ∈ all, ∀ w ∈ all, v.order w = .eq → v.same w = true) {values : List Value}
    (sub : values ⊆ all) (nonnull : ∀ v ∈ values, v.isNull = false) {last first : Value}
    (hfirst : first ∈ all) (same : last.same first = true) :
    ∃ best, values.foldl (keepBetter .gt) (some first) = some best
      ∧ (values.foldl (fun greatest w => if greatest.order w = .gt then greatest else w)
        last).same best = true := by
  induction values generalizing last first with
  | nil => exact ⟨first, rfl, same⟩
  | cons w rest ih =>
    obtain ⟨hw, nonnull⟩ := List.forall_mem_cons.1 nonnull
    obtain ⟨here, sub⟩ := List.cons_subset.1 sub
    have step : keepBetter .gt (some first) w
        = some (if first.order w = .lt then w else first) := by
      simp only [keepBetter, hw, Bool.false_eq_true, if_false, Value.order_swap w first,
        Ordering.swap_eq_gt]
      split <;> rfl
    rw [List.foldl_cons, List.foldl_cons, step, Value.order_congr same w]
    cases place : first.order w with
    | lt => exact ih sub nonnull here (Value.same_refl w)
    | eq =>
      have same' := (Value.same_comm w first).trans (level _ hfirst _ here place)
      exact ih sub nonnull hfirst same'
    | gt => exact ih sub nonnull hfirst same

/-- A greatest value is the last of several that are level, or the first; if they are one key, the
two are this key. -/
theorem same_greatestOf {values : List Value} (nonnull : ∀ v ∈ values, v.isNull = false)
    (level : ∀ v ∈ values, ∀ w ∈ values, v.order w = .eq → v.same w = true) :
    (greatestOf values).same (bestOf .gt values) = true := by
  cases values with
  | nil => rfl
  | cons v rest =>
    obtain ⟨hv, nonnull⟩ := List.forall_mem_cons.1 nonnull
    obtain ⟨best, hbest, same⟩ := foldl_greater level (List.subset_cons_self v rest) nonnull
      List.mem_cons_self (Value.same_refl v)
    rw [bestOf, List.foldl_cons, keepBetter, hv, if_neg Bool.false_ne_true]
    simp only [hbest, Option.getD_some]
    exact same

/-- Exact values that are level are one. -/
theorem greatestOf_eq {values : List Value} (exact : ∀ v ∈ values, v.isExact = true)
    (nonnull : ∀ v ∈ values, v.isNull = false) : greatestOf values = bestOf .gt values := by
  have level : ∀ v ∈ values, ∀ w ∈ values, v.order w = .eq → v.same w = true := by
    intro v hv w hw h
    rw [Value.order_orders.eq_of (exact v hv) (exact w hw) h]
    exact Value.same_refl w
  have same := same_greatestOf nonnull level
  rw [Value.same_comm, Value.same_eq_true_iff (isExact_bestOf (.inr rfl) exact)] at same
  exact same.symm

end Store

end DataGrid
