import DataGrid.Proofs.Rollup.Kinds
import DataGrid.Proofs.SumZeros

/-!
# What filling in zeros changes

The values of summaries are gone through as `SumZeros.Entry`s, those of a tree in the order of its
groups (`SumZeros.entriesUnder`). An entry asks for the zero of a selector if it is the null of a
sum, and `SumZeros.Filling` is the pass: what is asked for is put in place, up to the first selector
that does not resolve.

* A pass is the same whatever zeros are known, as long as they are right
  (`SumZeros.fillValues_fills`, `SumZeros.fillTree_fills`), and what it knows in the end is right
  again.
* `SumZeros.Known` are the zeros that passes over values and trees leave, one after another. From
  these, filling changes no more than `SumZeros.Filling` says, and nothing the second time
  (`SumZeros.fixes`).
-/

namespace DataGrid

open Resolver

variable {shape : Shape} {guardNulls : Bool}

/-- Whether nulls are guarded shows neither in the type of a path nor in what is wrong with it. -/
theorem Accessor.type_ofPath (shape : Shape) (guardNulls guardNulls' : Bool) (path : String) :
    (ofPath shape guardNulls path).map type = (ofPath shape guardNulls' path).map type := by
  simp only [ofPath]
  split <;> rfl

namespace SumZeros

/-- The sum of no values at a selector. -/
def zeroAt (shape : Shape) (selector : String) : Except CompileError Value :=
  ((Accessor.ofPath shape false selector).map Accessor.type).map TypedSum.sumOfNone

/-- The zero of a selector is that of its type, with nulls guarded or not. -/
theorem zeroAt_eq (shape : Shape) (guardNulls : Bool) (selector : String) :
    zeroAt shape selector
      = ((Accessor.ofPath shape guardNulls selector).map Accessor.type).map TypedSum.sumOfNone := by
  rw [zeroAt, Accessor.type_ofPath shape false guardNulls]

/-- A zero is no null, so that what is filled in asks for nothing again. -/
theorem ne_null_of_zeroAt {selector : String} {zero : Value}
    (h : zeroAt shape selector = .ok zero) : zero ≠ .null := by
  rw [zeroAt] at h
  cases resolved : Accessor.ofPath shape false selector with
  | error e =>
    rw [resolved] at h
    cases h
  | ok a =>
    rw [resolved] at h
    cases h
    intro null
    have amount := TypedSum.isAmount_sumOfNone a.type
    rw [null] at amount
    cases amount

/-! ### What is known of zeros -/

/-- Zeros that are right with nulls guarded are right without, and the other way round. -/
theorem Right.of_zeros {guardNulls' : Bool} {r r' : Resolver} {zeros : List (String × Value)}
    (h : Right shape guardNulls ⟨r, zeros⟩) (serves : r'.Serves shape guardNulls') :
    Right shape guardNulls' ⟨r', zeros⟩ := by
  refine ⟨serves, fun selector zero hit => ?_⟩
  obtain ⟨a, ha, rfl⟩ := h.2 selector zero hit
  have same := Accessor.type_ofPath shape guardNulls guardNulls' selector
  rw [ha] at same
  cases hb : Accessor.ofPath shape guardNulls' selector with
  | error e =>
    rw [hb] at same
    cases same
  | ok b =>
    rw [hb] at same
    exact ⟨b, rfl, congrArg TypedSum.sumOfNone (Except.ok.inj same)⟩

/-- No zero is known of a selector that does not resolve. -/
theorem Right.lookup_eq_none {d : SumZeros} (h : d.Right shape guardNulls) {selector : String}
    {e : CompileError} (fails : zeroAt shape selector = .error e) :
    d.zeros.lookup selector = none := by
  refine Option.eq_none_iff_forall_ne_some.2 fun zero hit => ?_
  obtain ⟨a, ha, -⟩ := h.2 selector zero hit
  rw [zeroAt_eq shape guardNulls, ha] at fails
  cases fails

/-- The zero of a selector is that of its type, whatever is known. -/
theorem zeroOf_answer {d : SumZeros} (h : d.Right shape guardNulls) (selector : String) :
    ∃ d', d.zeroOf selector = (zeroAt shape selector, d') ∧ d'.Right shape guardNulls := by
  rw [zeroAt_eq shape guardNulls]
  cases resolved : Accessor.ofPath shape guardNulls selector with
  | ok a => exact zeroOf_eq h resolved
  | error e =>
    have unknown : d.zeros.lookup selector = none :=
      h.lookup_eq_none (by rw [zeroAt_eq shape guardNulls, resolved]; rfl)
    obtain ⟨answer, serves⟩ := computes_resolve selector d.resolver h.1
    rw [resolved] at answer
    have found : d.resolver.lookup selector = (.error e, (d.resolver.lookup selector).2) :=
      Prod.ext answer rfl
    rw [zeroOf, unknown, found]
    exact ⟨_, rfl, serves, h.2⟩

/-! ### Entries -/

/-- A value and the summary at its position, if there is one. -/
structure Entry where
  /-- the summary -/
  summary : Option Summary
  /-- the value -/
  value : Value

/-- The selector whose zero is asked for: that of a sum, at a null. -/
def Entry.asks? : Entry → Option String
  | ⟨some ⟨some selector, .sum⟩, .null⟩ => some selector
  | _ => none

/-- Only nulls ask for a zero. -/
theorem Entry.asks?_of_ne_null {e : Entry} (h : e.value ≠ .null) : e.asks? = none := by
  unfold asks?
  split
  next => exact absurd rfl h
  next => rfl

/-- Values, with the summaries that they stand as. -/
def entries : List Summary → List Value → List Entry
  | s :: ss, v :: vs => ⟨some s, v⟩ :: entries ss vs
  | [], vs => vs.map fun v => ⟨none, v⟩
  | _, [] => []

mutual

/-- The entries of the groups that stand under a group. -/
def entriesUnder {α : Type} (ss : List Summary) : Subtree α → List Entry
  | .groups gs => entriesOf ss gs
  | .rows _ | .dropped => []

/-- The entries of groups: those of a group first, then those of what stands under it, then those of
the groups after it. -/
def entriesOf {α : Type} (ss : List Summary) : List (Group α) → List Entry
  | [] => []
  | .mk _ items _ summary :: rest =>
    entries ss (summary.getD []) ++ (entriesUnder ss items ++ entriesOf ss rest)

end

/-- A pass over entries, and the selector at which it stops with the error of that. -/
inductive Filling (shape : Shape) :
    List Entry → List Entry → Option (String × CompileError) → Prop where
  /-- the end -/
  | done : Filling shape [] [] none
  /-- an entry that asks for nothing is kept -/
  | kept {e : Entry} {es es' : List Entry} {failed : Option (String × CompileError)}
    (quiet : e.asks? = none) (rest : Filling shape es es' failed) :
    Filling shape (e :: es) (e :: es') failed
  /-- an entry becomes the zero that it asks for -/
  | zero {e : Entry} {selector : String} {zero : Value} {es es' : List Entry}
    {failed : Option (String × CompileError)} (asks : e.asks? = some selector)
    (resolves : zeroAt shape selector = .ok zero) (rest : Filling shape es es' failed) :
    Filling shape (e :: es) (⟨e.summary, zero⟩ :: es') failed
  /-- there is none, and all entries from here on are kept -/
  | stop {e : Entry} {selector : String} {error : CompileError} (es : List Entry)
    (asks : e.asks? = some selector) (fails : zeroAt shape selector = .error error) :
    Filling shape (e :: es) (e :: es) (some (selector, error))

namespace Filling

variable {es es' fs fs' : List Entry} {failed : Option (String × CompileError)}

/-- Entries that ask for nothing are kept. -/
theorem of_quiet {es : List Entry} (h : ∀ e ∈ es, e.asks? = none) : Filling shape es es none := by
  induction es with
  | nil => exact .done
  | cons e es ih =>
    obtain ⟨quiet, rest⟩ := List.forall_mem_cons.1 h
    exact .kept quiet (ih rest)

/-- A pass that gets to the end asks for nothing more. -/
theorem quiet (h : Filling shape es es' none) : ∀ e ∈ es', e.asks? = none := by
  generalize hfailed : none = failed at h
  induction h with
  | done => exact fun _ he => nomatch he
  | kept quiet _ ih => exact List.forall_mem_cons.2 ⟨quiet, ih hfailed⟩
  | @zero e _ zero _ _ _ _ resolves _ ih =>
    have asked : Entry.asks? ⟨e.summary, zero⟩ = none :=
      Entry.asks?_of_ne_null (ne_null_of_zeroAt resolves)
    exact List.forall_mem_cons.2 ⟨asked, ih hfailed⟩
  | stop => cases hfailed

/-- One pass goes on where another ended. -/
theorem append (h : Filling shape es es' none) (h' : Filling shape fs fs' failed) :
    Filling shape (es ++ fs) (es' ++ fs') failed := by
  generalize hnone : none = ended at h
  induction h with
  | done => exact h'
  | kept quiet _ ih => exact .kept quiet (ih hnone)
  | zero asks resolves _ ih => exact .zero asks resolves (ih hnone)
  | stop => cases hnone

/-- What stands behind the end of a pass that stops is kept. -/
theorem append_of_stop {p : String × CompileError} (h : Filling shape es es' (some p))
    (fs : List Entry) : Filling shape (es ++ fs) (es' ++ fs) (some p) := by
  generalize hsome : some p = stopped at h ⊢
  induction h with
  | done => cases hsome
  | kept quiet _ ih => exact .kept quiet (ih hsome)
  | zero asks resolves _ ih => exact .zero asks resolves (ih hsome)
  | stop es asks fails => exact .stop (es ++ fs) asks fails

end Filling

/-! ### The passes -/

/-- Work is a pass over the entries of something, of which it keeps the outline. -/
def Fills (shape : Shape) (guardNulls : Bool) {β : Type} (entries : β → List Entry)
    (outline : β → β) (b : β) (work : Outcome β × SumZeros) : Prop :=
  ∃ b' failed d', work = (⟨b', failed.map Prod.snd⟩, d') ∧ outline b' = outline b
    ∧ Filling shape (entries b) (entries b') failed ∧ d'.Right shape guardNulls

/-- As many values, without any. -/
def blank (values : List Value) : List Value := values.map fun _ => .null

/-- A value becomes the zero that its entry asks for. -/
theorem fillValue_eq_asks (d : SumZeros) (s : Summary) (v : Value) :
    d.fillValue s v = match Entry.asks? ⟨some s, v⟩ with
      | some selector => d.zeroOf selector
      | none => (.ok v, d) := by
  obtain ⟨selector, kind⟩ := s
  cases selector <;> cases kind <;> cases v <;> rfl

theorem quiet_entries_nil (vs : List Value) : ∀ e ∈ entries [] vs, e.asks? = none := by
  rw [entries, List.forall_mem_map]
  exact fun _ _ => rfl

/-- Going through values is a pass over their entries, by induction along the summaries. -/
theorem fillValues_fills {d : SumZeros} (h : d.Right shape guardNulls) (ss : List Summary)
    (vs : List Value) :
    Fills shape guardNulls (entries ss) blank vs (d.fillValues ss vs) := by
  induction ss generalizing d vs with
  | nil =>
    exact ⟨vs, none, d, by simp [fillValues], rfl, .of_quiet (quiet_entries_nil vs), h⟩
  | cons s ss ih =>
    cases vs with
    | nil => exact ⟨[], none, d, by simp [fillValues], rfl, .done, h⟩
    | cons v vs =>
      rw [fillValues, fillValue_eq_asks]
      cases asks : Entry.asks? ⟨some s, v⟩ with
      | none =>
        obtain ⟨vs', failed, d', run, same, filling, right⟩ := ih h vs
        simp only [run]
        exact ⟨v :: vs', failed, d', rfl, congrArg (Value.null :: ·) same, .kept asks filling,
          right⟩
      | some selector =>
        obtain ⟨d₁, answer, right₁⟩ := zeroOf_answer h selector
        simp only [answer]
        cases resolved : zeroAt shape selector with
        | ok zero =>
          obtain ⟨vs', failed, d', run, same, filling, right⟩ := ih right₁ vs
          simp only [run]
          exact ⟨zero :: vs', failed, d', rfl, congrArg (Value.null :: ·) same,
            .zero asks resolved filling, right⟩
        | error e =>
          exact ⟨v :: vs, some (selector, e), d₁, rfl, rfl, .stop _ asks resolved, right₁⟩

theorem fillSummary_fills {d : SumZeros} (h : d.Right shape guardNulls) (ss : List Summary)
    (summary : Option (List Value)) :
    Fills shape guardNulls (fun summary => entries ss (summary.getD [])) (Option.map blank) summary
      (d.fillSummary ss summary) := by
  cases summary with
  | none =>
    refine ⟨none, none, d, rfl, rfl, ?_, h⟩
    cases ss <;> exact .done
  | some values =>
    obtain ⟨vs', failed, d', run, same, filling, right⟩ := fillValues_fills h ss values
    rw [fillSummary, run]
    exact ⟨some vs', failed, d', rfl, congrArg some same, filling, right⟩

section Tree

variable {α : Type} (ss : List Summary)

mutual

theorem fillSubtree_fills : (t : Subtree α) → {d : SumZeros} → d.Right shape guardNulls →
    Fills shape guardNulls (entriesUnder ss) (Subtree.resum (Option.map blank)) t
      (d.fillSubtree ss t)
  | .groups gs, d, h => by
    obtain ⟨gs', failed, d', run, same, filling, right⟩ := fillTree_fills gs h
    rw [fillSubtree, run]
    exact ⟨.groups gs', failed, d', rfl, congrArg Subtree.groups same, filling, right⟩
  | .rows rs, d, h => ⟨.rows rs, none, d, rfl, rfl, .done, h⟩
  | .dropped, d, h => ⟨.dropped, none, d, rfl, rfl, .done, h⟩

/-- Going through groups is a pass over the entries of a group, then of what stands under it, then
of the groups after it. It ends where one of the three stops. -/
theorem fillTree_fills : (gs : List (Group α)) → {d : SumZeros} → d.Right shape guardNulls →
    Fills shape guardNulls (entriesOf ss) (Subtree.resumAll (Option.map blank)) gs
      (d.fillTree ss gs)
  | [], d, h => ⟨[], none, d, rfl, rfl, .done, h⟩
  | .mk key items count summary :: rest, d, h => by
    obtain ⟨summary', failed, d₁, run, sameSummary, summaryFilling, right₁⟩ :=
      fillSummary_fills h ss summary
    rw [fillTree, run]
    cases failed with
    | some p =>
      refine ⟨.mk key items count summary' :: rest, some p, d₁, rfl, ?_, ?_, right₁⟩
      · rw [Subtree.resumAll, Subtree.resumAll, sameSummary]
      · exact summaryFilling.append_of_stop _
    | none =>
      obtain ⟨items', failed, d₂, run, sameItems, itemsFilling, right₂⟩ :=
        fillSubtree_fills items right₁
      simp only [Option.map_none, run]
      cases failed with
      | some p =>
        refine ⟨.mk key items' count summary' :: rest, some p, d₂, rfl, ?_, ?_, right₂⟩
        · rw [Subtree.resumAll, Subtree.resumAll, sameSummary, sameItems]
        · exact summaryFilling.append (itemsFilling.append_of_stop _)
      | none =>
        obtain ⟨rest', failed, d₃, run, sameRest, restFilling, right₃⟩ := fillTree_fills rest right₂
        simp only [Option.map_none, run]
        refine ⟨.mk key items' count summary' :: rest', failed, d₃, rfl, ?_, ?_, right₃⟩
        · rw [Subtree.resumAll, Subtree.resumAll, sameSummary, sameItems, sameRest]
        · exact summaryFilling.append (itemsFilling.append restFilling)

end

mutual

theorem quiet_entriesUnder_nil : (t : Subtree α) → ∀ e ∈ entriesUnder [] t, e.asks? = none
  | .groups gs => quiet_entriesOf_nil gs
  | .rows _ | .dropped => fun _ he => nomatch he

/-- Without summaries nothing asks for a zero. -/
theorem quiet_entriesOf_nil : (gs : List (Group α)) → ∀ e ∈ entriesOf [] gs, e.asks? = none
  | [] => fun _ he => nomatch he
  | .mk _ items _ _ :: rest => by
    rw [entriesOf, List.forall_mem_append, List.forall_mem_append]
    exact ⟨quiet_entries_nil _, quiet_entriesUnder_nil items, quiet_entriesOf_nil rest⟩

end

/-- So is going through groups, also where there are no summaries to look at. -/
theorem fillGroups_fills {d : SumZeros} (h : d.Right shape guardNulls) (gs : List (Group α)) :
    Fills shape guardNulls (entriesOf ss) (Subtree.resumAll (Option.map blank)) gs
      (d.fillGroups ss gs) := by
  rw [fillGroups]
  split
  next none =>
    rw [List.isEmpty_iff.1 none]
    exact ⟨gs, Option.none, d, rfl, rfl, .of_quiet (quiet_entriesOf_nil gs), h⟩
  next => exact fillTree_fills ss gs h

end Tree

/-! ### Nothing to fill in -/

/-- Values that ask for nothing stay, and nothing more becomes known. -/
theorem fillValues_of_quiet {ss : List Summary} {vs : List Value}
    (h : ∀ e ∈ entries ss vs, e.asks? = none) (d : SumZeros) :
    d.fillValues ss vs = (⟨vs, none⟩, d) := by
  induction ss generalizing vs with
  | nil => simp [fillValues]
  | cons s ss ih =>
    cases vs with
    | nil => simp [fillValues]
    | cons v vs =>
      obtain ⟨quiet, rest⟩ := List.forall_mem_cons.1 h
      rw [fillValues, fillValue_eq_asks, quiet]
      simp only [ih rest]

section Tree

variable {α : Type} {ss : List Summary}

theorem fillSummary_of_quiet {summary : Option (List Value)}
    (h : ∀ e ∈ entries ss (summary.getD []), e.asks? = none) (d : SumZeros) :
    d.fillSummary ss summary = (⟨summary, none⟩, d) := by
  cases summary with
  | none => rfl
  | some values =>
    have run := fillValues_of_quiet h d
    rw [Option.getD_some] at run
    rw [fillSummary, run]

mutual

theorem fillSubtree_of_quiet : (t : Subtree α) → (∀ e ∈ entriesUnder ss t, e.asks? = none) →
    (d : SumZeros) → d.fillSubtree ss t = (⟨t, none⟩, d)
  | .groups gs, h, d => by rw [fillSubtree, fillTree_of_quiet gs h]
  | .rows _, _, _ | .dropped, _, _ => rfl

/-- So do groups whose entries ask for nothing. -/
theorem fillTree_of_quiet : (gs : List (Group α)) → (∀ e ∈ entriesOf ss gs, e.asks? = none) →
    (d : SumZeros) → d.fillTree ss gs = (⟨gs, none⟩, d)
  | [], _, _ => rfl
  | .mk key items count summary :: rest, h, d => by
    rw [entriesOf, List.forall_mem_append, List.forall_mem_append] at h
    obtain ⟨here, under, after⟩ := h
    simp only [fillTree, fillSummary_of_quiet here, fillSubtree_of_quiet items under,
      fillTree_of_quiet rest after]

end

/-- Nothing is changed in groups whose entries ask for nothing. -/
theorem fillGroups_of_quiet {gs : List (Group α)} (h : ∀ e ∈ entriesOf ss gs, e.asks? = none)
    (d : SumZeros) : d.fillGroups ss gs = (⟨gs, none⟩, d) := by
  rw [fillGroups]
  split
  · rfl
  · exact fillTree_of_quiet gs h d

end Tree

/-! ### One pass after another -/

/-- Zeros that are known after passes over values and groups of any kind of rows, each with a
resolver of the shape that guards nulls or not. -/
inductive Known (shape : Shape) : List (String × Value) → Prop where
  /-- nothing was filled in yet -/
  | fresh : Known shape []
  /-- after values were gone through -/
  | values {zeros : List (String × Value)} (before : Known shape zeros) {guardNulls : Bool}
    {r : Resolver} (serves : r.Serves shape guardNulls) (ss : List Summary) (vs : List Value) :
    Known shape (fillValues ⟨r, zeros⟩ ss vs).2.zeros
  /-- after groups were gone through -/
  | groups {zeros : List (String × Value)} (before : Known shape zeros) {guardNulls : Bool}
    {r : Resolver} (serves : r.Serves shape guardNulls) (ss : List Summary) {α : Type}
    (gs : List (Group α)) : Known shape (fillGroups ⟨r, zeros⟩ ss gs).2.zeros

/-- What passes leave is right for every resolver of the shape. -/
theorem Known.right {zeros : List (String × Value)} (h : Known shape zeros) {guardNulls : Bool}
    {r : Resolver} (serves : r.Serves shape guardNulls) : Right shape guardNulls ⟨r, zeros⟩ := by
  induction h generalizing guardNulls r with
  | fresh => exact ⟨serves, fun _ _ hit => by simp at hit⟩
  | values _ serves' ss vs ih =>
    obtain ⟨_, _, d', run, -, -, right⟩ := fillValues_fills (ih serves') ss vs
    rw [run]
    exact right.of_zeros serves
  | groups _ serves' ss gs ih =>
    obtain ⟨_, _, d', run, -, -, right⟩ := fillGroups_fills ss (ih serves') gs
    rw [run]
    exact right.of_zeros serves

/-- What filling in zeros does to something with entries. -/
structure Fixes (shape : Shape) {β : Type} (fix : SumZeros → β → Outcome β × SumZeros)
    (entries : β → List Entry) (outline : β → β) (d : SumZeros) (b : β) : Prop where
  /-- only values of entries are changed -/
  outline : outline (fix d b).1.result = outline b
  /-- the entries become what they ask for up to the one whose selector does not resolve, of which
  no zero is known afterwards -/
  filling : ∃ failed, Filling shape (entries b) (entries (fix d b).1.result) failed
    ∧ (fix d b).1.error = failed.map Prod.snd
    ∧ ∀ selector e, failed = some (selector, e) → (fix d b).2.zeros.lookup selector = none
  /-- once all zeros are in place nothing is changed, nor is anything more known -/
  again : (fix d b).1.error = none →
    ∀ d', fix d' (fix d b).1.result = (⟨(fix d b).1.result, none⟩, d')

/-- No zero is known of the selector at which a pass stops. -/
theorem Filling.lookup_eq_none {es es' : List Entry} {selector : String} {e : CompileError}
    (h : Filling shape es es' (some (selector, e))) {d : SumZeros}
    (right : d.Right shape guardNulls) : d.zeros.lookup selector = none := by
  generalize hsome : some (selector, e) = failed at h
  induction h with
  | done => cases hsome
  | kept _ _ ih | zero _ _ _ ih => exact ih hsome
  | stop _ _ fails =>
    cases hsome
    exact right.lookup_eq_none fails

/-- A pass that leaves what asks for nothing alone does what filling in zeros is to do. -/
theorem Fixes.of_fills {β : Type} {fix : SumZeros → β → Outcome β × SumZeros}
    {entries : β → List Entry} {outline : β → β} {d : SumZeros} {b : β}
    (h : Fills shape guardNulls entries outline b (fix d b))
    (settled : ∀ b', (∀ e ∈ entries b', e.asks? = none) → ∀ d', fix d' b' = (⟨b', none⟩, d')) :
    Fixes shape fix entries outline d b := by
  obtain ⟨b', failed, d', run, same, filling, right⟩ := h
  constructor
  · rw [run]
    exact same
  · rw [run]
    refine ⟨failed, filling, rfl, ?_⟩
    rintro selector e rfl
    exact filling.lookup_eq_none right
  · rw [run]
    intro succeeded
    rw [Option.map_eq_none_iff.1 succeeded] at filling
    exact settled b' filling.quiet

/-- After any passes, zeros are filled into values and into groups as `Filling` says. -/
theorem fixes {zeros : List (String × Value)} (known : Known shape zeros) {r : Resolver}
    (serves : r.Serves shape guardNulls) (ss : List Summary) :
    (∀ vs, Fixes shape (fun d => d.fillValues ss) (entries ss) blank ⟨r, zeros⟩ vs)
    ∧ ∀ (α : Type) (gs : List (Group α)), Fixes shape (fun d => d.fillGroups ss) (entriesOf ss)
      (Subtree.resumAll (Option.map blank)) ⟨r, zeros⟩ gs := by
  have right := known.right serves
  exact ⟨fun vs => .of_fills (fillValues_fills right ss vs) fun _ => fillValues_of_quiet,
    fun α gs => .of_fills (fillGroups_fills ss right gs) fun _ => fillGroups_of_quiet⟩

/-- The zeros of a task, of which a group had asked for the points with nulls guarded: every type
that is summed has a zero of its own, and a text has that of the integers. -/
theorem fixes_points :
    let shape : Shape := .mk "Task" [.mk "points" .int32 true, .mk "cost" .float64 true,
      .mk "took" .span true, .mk "name" .string true]
    let sums : List Summary := [⟨some "points", .sum⟩, ⟨some "cost", .sum⟩, ⟨some "took", .sum⟩,
      ⟨some "name", .sum⟩]
    let nulls : List Value := [.null, .null, .null, .null]
    let asked : List (Group Value) := [.mk .null .dropped none (some [.null])]
    let zeros := (fillGroups ⟨.fresh shape true, []⟩ (sums.take 1) asked).2.zeros
    zeros = [("points", .int 0)]
    ∧ (fillValues ⟨.fresh shape false, zeros⟩ sums nulls).1.result
        = [.int 0, .float (.zero false), .span .zero, .int 0]
    ∧ Fixes shape (fun d => d.fillValues sums) (entries sums) blank
      ⟨.fresh shape false, zeros⟩ nulls
    ∧ Fixes shape (fun d => d.fillGroups sums) (entriesOf sums)
      (Subtree.resumAll (Option.map blank)) ⟨.fresh shape false, zeros⟩ asked := by
  intro shape sums nulls asked zeros
  have known : Known shape zeros := .groups .fresh serves_fresh _ _
  have serves : (Resolver.fresh shape false).Serves shape false := serves_fresh
  have fixed := fixes known serves sums
  exact ⟨by rfl, by rfl, fixed.1 nulls, fixed.2 Value asked⟩

end SumZeros

end DataGrid
