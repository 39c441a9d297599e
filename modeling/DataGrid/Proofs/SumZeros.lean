import DataGrid.Proofs.Planning
import DataGrid.Proofs.Group.Summaries

/-!
# What sums of no values become

If all selectors resolve, the zeros that are put in place of null sums depend on the shape only, and
not on what was known of them before (`Requesting.computes_zeroSums`).
-/

namespace DataGrid

open Resolver

variable {shape : Shape} {guardNulls : Bool}

namespace SumZeros

/-- The value of a summary with the zero of its type in place of a null sum. -/
def filled (shape : Shape) (guardNulls : Bool) (s : Summary) (v : Value) : Value :=
  match s.kind, v.isNull, s.selector with
  | .sum, true, some selector =>
    match Accessor.ofPath shape guardNulls selector with
    | .ok a => TypedSum.sumOfNone a.type
    | .error _ => v
  | _, _, _ => v

/-- The values of summaries with zeros in place of null sums. -/
def filledAll (shape : Shape) (guardNulls : Bool) : List Summary → List Value → List Value
  | s :: ss, v :: vs => filled shape guardNulls s v :: filledAll shape guardNulls ss vs
  | _, vs => vs

/-- What is known of zeros is right for a shape and a setting. -/
def Right (shape : Shape) (guardNulls : Bool) (d : SumZeros) : Prop :=
  d.resolver.Serves shape guardNulls ∧ ∀ selector zero, d.zeros.lookup selector = some zero →
    ∃ a, Accessor.ofPath shape guardNulls selector = .ok a ∧ zero = TypedSum.sumOfNone a.type

/-- Every summary of a list resolves. -/
def Resolve (shape : Shape) (guardNulls : Bool) (ss : List Summary) : Prop :=
  ∀ s ∈ ss, ∃ a?, s.resolved shape guardNulls = .ok a?

/-- The zero of a selector that resolves is that of its type, known before or not. -/
theorem zeroOf_eq {d : SumZeros} (hd : d.Right shape guardNulls) {selector : String} {a : Accessor}
    (ha : Accessor.ofPath shape guardNulls selector = .ok a) :
    ∃ d', d.zeroOf selector = (.ok (TypedSum.sumOfNone a.type), d')
      ∧ d'.Right shape guardNulls := by
  obtain ⟨serves, zeros⟩ := hd
  rw [zeroOf]
  split
  next zero hit =>
    obtain ⟨b, hb, rfl⟩ := zeros selector zero hit
    rw [ha] at hb
    cases hb
    exact ⟨d, rfl, serves, zeros⟩
  next =>
    obtain ⟨answer, serves⟩ := computes_resolve selector d.resolver serves
    rw [ha] at answer
    have found : d.resolver.lookup selector = (.ok a, (d.resolver.lookup selector).2) :=
      Prod.ext answer rfl
    rw [found]
    refine ⟨_, rfl, serves, fun other zero hit => ?_⟩
    simp only [List.lookup_cons] at hit
    split at hit
    next same =>
      cases hit
      exact ⟨a, beq_iff_eq.1 same ▸ ha, rfl⟩
    next => exact zeros other zero hit

/-- One value is filled in as it would be without anything known. -/
theorem fillValue_eq {d : SumZeros} (hd : d.Right shape guardNulls) {s : Summary}
    (hs : ∃ a?, s.resolved shape guardNulls = .ok a?) (v : Value) :
    ∃ d', d.fillValue s v = (.ok (filled shape guardNulls s v), d')
      ∧ d'.Right shape guardNulls := by
  rw [fillValue, filled]
  cases hkind : s.kind
  case sum =>
    cases hselector : s.selector with
    | none => cases v.isNull <;> exact ⟨d, rfl, hd⟩
    | some selector =>
      cases v.isNull with
      | false => exact ⟨d, rfl, hd⟩
      | true =>
        obtain ⟨a?, hs⟩ := hs
        rcases Summary.resolved_eq_ok hs with ⟨none, -⟩ | ⟨-, selector', a, hselector', ha, -⟩
        · rw [hkind] at none
          cases none
        · rw [hselector] at hselector'
          cases hselector'
          simp only [ha]
          exact zeroOf_eq hd ha
  -- a value of another kind is kept
  all_goals exact ⟨d, rfl, hd⟩

/-- So are the values of summaries, by induction along the summaries. -/
theorem fillValues_eq {d : SumZeros} (hd : d.Right shape guardNulls) {ss : List Summary}
    (hss : Resolve shape guardNulls ss) (vs : List Value) :
    ∃ d', d.fillValues ss vs = (⟨filledAll shape guardNulls ss vs, none⟩, d')
      ∧ d'.Right shape guardNulls := by
  induction ss generalizing d vs with
  | nil => exact ⟨d, by simp [fillValues, filledAll], hd⟩
  | cons s ss ih =>
    cases vs with
    | nil => exact ⟨d, by simp [fillValues, filledAll], hd⟩
    | cons v vs =>
      obtain ⟨hs, hss⟩ := List.forall_mem_cons.1 hss
      obtain ⟨d', hv, hd'⟩ := fillValue_eq hd hs v
      obtain ⟨d'', hvs, hd''⟩ := ih hd' hss vs
      exact ⟨d'', by rw [fillValues, hv]; simp only [hvs]; rfl, hd''⟩

theorem fillSummary_eq {d : SumZeros} (hd : d.Right shape guardNulls) {ss : List Summary}
    (hss : Resolve shape guardNulls ss) (summary : Option (List Value)) :
    ∃ d', d.fillSummary ss summary
        = (⟨summary.map (filledAll shape guardNulls ss), none⟩, d')
      ∧ d'.Right shape guardNulls := by
  cases summary with
  | none => exact ⟨d, rfl, hd⟩
  | some values =>
    obtain ⟨d', hvs, hd'⟩ := fillValues_eq hd hss values
    exact ⟨d', by rw [fillSummary, hvs]; rfl, hd'⟩

section Tree

variable {α : Type} {ss : List Summary}

mutual

theorem fillSubtree_eq (hss : Resolve shape guardNulls ss) : (t : Subtree α) → {d : SumZeros} →
    d.Right shape guardNulls → ∃ d', d.fillSubtree ss t
        = (⟨t.resum (Option.map (filledAll shape guardNulls ss)), none⟩, d')
      ∧ d'.Right shape guardNulls
  | .groups gs, d, hd => by
    obtain ⟨d', hgs, hd'⟩ := fillTree_eq hss gs hd
    exact ⟨d', by rw [fillSubtree, hgs]; rfl, hd'⟩
  | .rows rs, d, hd => ⟨d, rfl, hd⟩
  | .dropped, d, hd => ⟨d, rfl, hd⟩

/-- So are the summaries of all groups of a tree. -/
theorem fillTree_eq (hss : Resolve shape guardNulls ss) : (gs : List (Group α)) → {d : SumZeros} →
    d.Right shape guardNulls → ∃ d', d.fillTree ss gs
        = (⟨Subtree.resumAll (Option.map (filledAll shape guardNulls ss)) gs, none⟩, d')
      ∧ d'.Right shape guardNulls
  | [], d, hd => ⟨d, rfl, hd⟩
  | .mk key items count summary :: rest, d, hd => by
    obtain ⟨d₁, hsummary, hd₁⟩ := fillSummary_eq hd hss summary
    obtain ⟨d₂, hitems, hd₂⟩ := fillSubtree_eq hss items hd₁
    obtain ⟨d₃, hrest, hd₃⟩ := fillTree_eq hss rest hd₂
    exact ⟨d₃, by rw [fillTree, hsummary]; simp only [hitems, hrest]; rfl, hd₃⟩

end

end Tree

end SumZeros

namespace Subtree

variable {α : Type} {f : Option (List Value) → Option (List Value)}

mutual

/-- A tree whose summaries stay is the same tree. -/
theorem resum_self (h : ∀ summary, f summary = summary) : (t : Subtree α) → t.resum f = t
  | .groups gs => congrArg Subtree.groups (resumAll_self h gs)
  | .rows _ | .dropped => rfl

theorem resumAll_self (h : ∀ summary, f summary = summary) :
    (gs : List (Group α)) → resumAll f gs = gs
  | [] => rfl
  | .mk key items count summary :: rest => by
    rw [resumAll, resum_self h items, h, resumAll_self h rest]

end

end Subtree

/-- Groups are filled in without an error if all selectors resolve. -/
theorem SumZeros.fillGroups_eq {α : Type} {d : SumZeros} (hd : d.Right shape guardNulls)
    {ss : List Summary} (hss : Resolve shape guardNulls ss) (gs : List (Group α)) :
    ∃ d', d.fillGroups ss gs
        = (⟨Subtree.resumAll (Option.map (filledAll shape guardNulls ss)) gs, none⟩, d')
      ∧ d'.Right shape guardNulls := by
  rw [fillGroups]
  split
  next none =>
    rw [List.isEmpty_iff.1 none]
    refine ⟨d, ?_, hd⟩
    rw [Subtree.resumAll_self fun summary => by cases summary <;> simp [filledAll]]
  next => exact fillTree_eq hss gs hd

namespace Requesting

variable {α : Type}

/-- What a resolver computes may be part of a request. -/
theorem computes_compiling {work : Resolving α} {outcome : Except CompileError α}
    (h : Computes (Serves shape guardNulls) work outcome) :
    Computes (Serves shape guardNulls) (compiling work) (outcome.mapError .compile) := by
  intro r hr
  obtain ⟨hout, hserves⟩ := h r hr
  have told : ∀ p : Except CompileError α × Resolver,
      (match p with
        | (.ok a, r) => (.ok a, r)
        | (.error e, r) => (.error (.compile e), r))
        = (p.1.mapError RequestError.compile, p.2) := by
    rintro ⟨_ | _, _⟩ <;> rfl
  have run : (compiling work).run.run r = ((work.run.run r).1.mapError .compile,
      (work.run.run r).2) := told (work.run.run r)
  rw [run, hout]
  exact ⟨rfl, hserves⟩

theorem computes_reading {inv : Resolver → Prop} (outcome : Except ReadError α) :
    Computes inv (reading outcome) (outcome.mapError .read) :=
  fun _ hr => ⟨rfl, hr⟩

/-- Putting in zeros that are found whatever is known of them. -/
theorem run_zeroing {fix : SumZeros → SumZeros.Outcome α × SumZeros} {result : α}
    (hfix : ∀ d, d.Right shape guardNulls →
      ∃ d', fix d = (⟨result, none⟩, d') ∧ d'.Right shape guardNulls)
    {r : Resolver} {zeros : List (String × Value)}
    (hd : (⟨r, zeros⟩ : SumZeros).Right shape guardNulls) :
    ∃ d' : SumZeros, (zeroing zeros fix).run.run r = (.ok (result, d'.zeros), d'.resolver)
      ∧ d'.Right shape guardNulls := by
  obtain ⟨d', hfix, hd'⟩ := hfix _ hd
  refine ⟨d', ?_, hd'⟩
  simp only [zeroing, ExceptT.run_mk, StateT.run, hfix]

/-- The totals are filled in, and what becomes known is right. -/
theorem run_zeroTotals {total : List Summary} (htotal : SumZeros.Resolve shape guardNulls total)
    (totals : Option (List Value)) {r : Resolver} (hr : r.Serves shape guardNulls) :
    ∃ d : SumZeros, (zeroTotals total totals).run.run r
        = (.ok (totals.map (SumZeros.filledAll shape guardNulls total), d.zeros), d.resolver)
      ∧ d.Right shape guardNulls := by
  have fresh : (⟨r, []⟩ : SumZeros).Right shape guardNulls :=
    ⟨hr, fun _ _ hit => by simp at hit⟩
  cases totals with
  | none => exact ⟨⟨r, []⟩, rfl, fresh⟩
  | some values =>
    obtain ⟨d, hrun, hd⟩ := run_zeroing (fun d hd => SumZeros.fillValues_eq hd htotal values) fresh
    exact ⟨d, run_bind_of_ok hrun, hd⟩

/-- Zeros are put in place of the null sums of totals and of groups. -/
theorem computes_zeroSums {total group : List Summary}
    (htotal : SumZeros.Resolve shape guardNulls total)
    (hgroup : SumZeros.Resolve shape guardNulls group) (data : Subtree α)
    (totals : Option (List Value)) :
    Computes (Serves shape guardNulls) (zeroSums total group data totals)
      (.ok (data.resum (Option.map (SumZeros.filledAll shape guardNulls group)),
        totals.map (SumZeros.filledAll shape guardNulls total))) := by
  intro r hr
  obtain ⟨d, htotals, hd⟩ := run_zeroTotals htotal totals hr
  rw [zeroSums, run_bind_of_ok htotals]
  cases data with
  | groups gs =>
    obtain ⟨d', hgs, hd'⟩ :=
      run_zeroing (fun d hd => SumZeros.fillGroups_eq hd hgroup gs) hd
    simp only
    rw [run_bind_of_ok hgs]
    exact ⟨rfl, hd'.1⟩
  | rows rs => exact ⟨rfl, hd.1⟩
  | dropped => exact ⟨rfl, hd.1⟩

end Requesting

end DataGrid
