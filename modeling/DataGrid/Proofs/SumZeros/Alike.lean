import DataGrid.Proofs.Respects
import DataGrid.Proofs.SumZeros

/-!
# Zeros from one resolver or another

What is put in place of null sums depends on the zeros that are known, but not on what a resolver
remembers: neither the values, nor the error at a selector that does not resolve and what was put in
place before it, nor the zeros that are known afterwards.
-/

namespace DataGrid

open Resolver

namespace SumZeros

variable {shape : Shape} {guardNulls : Bool}

/-- The same zeros are known, and nothing wrong is remembered of paths. -/
structure Alike (shape : Shape) (guardNulls : Bool) (d d' : SumZeros) : Prop where
  /-- the resolver of the one -/
  serves : d.resolver.Serves shape guardNulls
  /-- the resolver of the other -/
  serves' : d'.resolver.Serves shape guardNulls
  /-- the zeros -/
  zeros : d.zeros = d'.zeros

/-- The zero of a selector is known in both or in neither, and is found the same. -/
theorem respects_zeroOf (selector : String) :
    Respects (Alike shape guardNulls) fun d => d.zeroOf selector := by
  intro d d' h
  simp only [zeroOf, ← h.zeros]
  cases d.zeros.lookup selector with
  | some zero => exact ⟨.ok zero, d, d', rfl, rfl, h⟩
  | none =>
    obtain ⟨outcome, r, r', found, found', serves, serves'⟩ :=
      Respects.of_computes (computes_resolve selector) _ _ ⟨h.serves, h.serves'⟩
    have found : d.resolver.lookup selector = (outcome, r) := found
    have found' : d'.resolver.lookup selector = (outcome, r') := found'
    simp only [found, found']
    cases outcome with
    | error e => exact ⟨.error e, _, _, rfl, rfl, serves, serves', rfl⟩
    | ok a => exact ⟨.ok (TypedSum.sumOfNone a.type), _, _, rfl, rfl, serves, serves', rfl⟩

/-- A value asks for a zero or not by itself. -/
theorem respects_fillValue (s : Summary) (v : Value) :
    Respects (Alike shape guardNulls) fun d => d.fillValue s v := by
  intro d d' h
  simp only [fillValue]
  split
  next selector _ _ _ => exact respects_zeroOf selector d d' h
  next => exact ⟨.ok v, d, d', rfl, rfl, h⟩

/-- Values are gone through alike, up to the same selector if one does not resolve. -/
theorem respects_fillValues (ss : List Summary) (vs : List Value) :
    Respects (Alike shape guardNulls) fun d => d.fillValues ss vs := by
  induction ss generalizing vs with
  | nil => exact fun d d' h => ⟨⟨vs, none⟩, d, d', by simp [fillValues], by simp [fillValues], h⟩
  | cons s ss ih =>
    intro d d' h
    cases vs with
    | nil => exact ⟨⟨[], none⟩, d, d', by simp [fillValues], by simp [fillValues], h⟩
    | cons v vs =>
      obtain ⟨outcome, d₁, d₁', first, first', h₁⟩ := respects_fillValue s v d d' h
      beta_reduce at first first'
      simp only [fillValues, first, first']
      cases outcome with
      | error e => exact ⟨⟨v :: vs, some e⟩, d₁, d₁', rfl, rfl, h₁⟩
      | ok w =>
        obtain ⟨rest, d₂, d₂', hrest, hrest', h₂⟩ := ih vs d₁ d₁' h₁
        beta_reduce at hrest hrest'
        simp only [hrest, hrest']
        exact ⟨⟨w :: rest.result, rest.error⟩, d₂, d₂', rfl, rfl, h₂⟩

/-- So is the summary of a group, if it has one. -/
theorem respects_fillSummary (ss : List Summary) (summary : Option (List Value)) :
    Respects (Alike shape guardNulls) fun d => d.fillSummary ss summary := by
  intro d d' h
  cases summary with
  | none => exact ⟨⟨none, none⟩, d, d', rfl, rfl, h⟩
  | some values =>
    obtain ⟨fixed, d₁, d₁', hfixed, hfixed', h₁⟩ := respects_fillValues ss values d d' h
    beta_reduce at hfixed hfixed'
    simp only [fillSummary, hfixed, hfixed']
    exact ⟨⟨some fixed.result, fixed.error⟩, d₁, d₁', rfl, rfl, h₁⟩

section Tree

variable {α : Type} (ss : List Summary)

mutual

/-- So is what stands under a group. -/
theorem respects_fillSubtree : (t : Subtree α) →
    Respects (Alike shape guardNulls) fun d => d.fillSubtree ss t
  | .groups gs => by
    intro d d' h
    obtain ⟨fixed, d₁, d₁', hfixed, hfixed', h₁⟩ := respects_fillTree gs d d' h
    beta_reduce at hfixed hfixed'
    simp only [fillSubtree, hfixed, hfixed']
    exact ⟨⟨.groups fixed.result, fixed.error⟩, d₁, d₁', rfl, rfl, h₁⟩
  | .rows rs => fun d d' h => ⟨⟨.rows rs, none⟩, d, d', rfl, rfl, h⟩
  | .dropped => fun d d' h => ⟨⟨.dropped, none⟩, d, d', rfl, rfl, h⟩

/-- A group, what stands under it and the groups after it are gone through alike, since each of
these leaves zeros that are. -/
theorem respects_fillTree : (gs : List (Group α)) →
    Respects (Alike shape guardNulls) fun d => d.fillTree ss gs
  | [] => fun d d' h => ⟨⟨[], none⟩, d, d', rfl, rfl, h⟩
  | .mk key items count summary :: rest => by
    intro d d' h
    obtain ⟨⟨summary, e?⟩, d₁, d₁', hsummary, hsummary', h₁⟩ :=
      respects_fillSummary ss summary d d' h
    beta_reduce at hsummary hsummary'
    simp only [fillTree, hsummary, hsummary']
    cases e? with
    | some e => exact ⟨⟨.mk key items count summary :: rest, some e⟩, d₁, d₁', rfl, rfl, h₁⟩
    | none =>
      obtain ⟨⟨items, e?⟩, d₂, d₂', hitems, hitems', h₂⟩ := respects_fillSubtree items d₁ d₁' h₁
      beta_reduce at hitems hitems'
      simp only [hitems, hitems']
      cases e? with
      | some e => exact ⟨⟨.mk key items count summary :: rest, some e⟩, d₂, d₂', rfl, rfl, h₂⟩
      | none =>
        obtain ⟨fixed, d₃, d₃', hrest, hrest', h₃⟩ := respects_fillTree rest d₂ d₂' h₂
        beta_reduce at hrest hrest'
        simp only [hrest, hrest']
        exact ⟨⟨.mk key items count summary :: fixed.result, fixed.error⟩, d₃, d₃', rfl, rfl, h₃⟩

end

/-- So are groups, also where there are no summaries to look at. -/
theorem respects_fillGroups (gs : List (Group α)) :
    Respects (Alike shape guardNulls) fun d => d.fillGroups ss gs := by
  simp only [fillGroups]
  split
  · exact fun d d' h => ⟨⟨gs, none⟩, d, d', rfl, rfl, h⟩
  · exact respects_fillTree ss gs

end Tree

end SumZeros

end DataGrid
