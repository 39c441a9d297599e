import DataGrid.Filter.Compile
import DataGrid.Proofs.Outcome

/-!
# Criteria whose clauses compile alike

Where the clauses of criteria compile alike in two ways, to predicates in a relation that negation
and the joining of clauses keep, the criteria compile alike (`Filter.compileWith_alike`).
-/

namespace DataGrid

open Outcome (Alike)

theorem Outcome.Alike.lift {α β : Type} {R : α → β → Prop} {x : Except CompileError α}
    {y : Except CompileError β} (h : Alike R x y) :
    Alike R (liftExcept x : Except CompileError α) (liftExcept y) := by
  cases h with
  | ok h => exact .ok h
  | error e => exact .error e

/-- A relation of predicates that negation and the joining of clauses keep. -/
structure Predicate.Congruent (R : Predicate → Predicate → Prop) : Prop where
  /-- of a predicate turned -/
  negate {p q : Predicate} (h : R p q) : R p.negate q.negate
  /-- of predicates joined by `and` -/
  all {ps qs : List Predicate} (h : List.Forall₂ R ps qs) : R (.all ps) (.all qs)
  /-- of predicates joined by `or` -/
  any {ps qs : List Predicate} (h : List.Forall₂ R ps qs) : R (.any ps) (.any qs)

namespace Filter

variable {R : Predicate → Predicate → Prop}

/-- Two groups in the middle of being compiled have seen the same connectors and related clauses. -/
structure Joining.Alike (R : Predicate → Predicate → Prop) (j k : Joining) : Prop where
  /-- the clauses so far, one by one -/
  operands : List.Forall₂ R j.operands k.operands
  /-- the connector before the last clause -/
  conjunction : j.conjunction = k.conjunction
  /-- the connector before the next clause -/
  next : j.next = k.next

namespace Joining.Alike

variable {j k : Joining}

theorem start : Alike R start start := ⟨.nil, rfl, rfl⟩

theorem connect (h : Alike R j k) (token : String) : Alike R (j.connect token) (k.connect token) :=
  ⟨h.operands, h.conjunction, rfl⟩

theorem push (h : Alike R j k) {p q : Predicate} (hpq : R p q) :
    Alike R (j.push p) (k.push q) :=
  ⟨List.rel_append h.operands (.cons hpq .nil), h.next, rfl⟩

theorem disagrees (h : Alike R j k) : j.disagrees = k.disagrees := by
  rw [Joining.disagrees, Joining.disagrees, h.operands.length_eq, h.conjunction, h.next]

theorem finish (congruent : Predicate.Congruent R) (h : Alike R j k) :
    Outcome.Alike R j.finish k.finish := by
  obtain ⟨operands, conjunction, next⟩ := j
  obtain ⟨operands', conjunction', next'⟩ := k
  obtain ⟨hoperands, rfl, -⟩ := h
  cases hoperands with
  | nil => exact .error _
  | cons hpq rest =>
    cases rest with
    | nil => exact .ok hpq
    | cons hpq' rest =>
      cases conjunction with
      | true => exact .ok (congruent.all (.cons hpq (.cons hpq' rest)))
      | false => exact .ok (congruent.any (.cons hpq (.cons hpq' rest)))

end Joining.Alike

section Compile

variable {binary binary' : String → String → Value → Except CompileError Predicate}

mutual

/-- Criteria compile alike in two ways if their clauses do. -/
theorem compileWith_alike (congruent : Predicate.Congruent R)
    (h : ∀ path operation value,
      Alike R (binary path operation value) (binary' path operation value)) :
    (c : Criteria) → Alike R (compileWith binary c) (compileWith binary' c)
  | .binary path operation value => by
    rw [compileWith, compileWith]
    exact h _ _ _
  | .negation inner => by
    rw [compileWith, compileWith]
    exact (compileWith_alike congruent h inner).bind fun _ _ hpq => .ok (congruent.negate hpq)
  | .group items => by
    rw [compileWith, compileWith]
    exact compileItems_alike congruent h items .start

theorem compileItems_alike (congruent : Predicate.Congruent R)
    (h : ∀ path operation value,
      Alike R (binary path operation value) (binary' path operation value)) :
    (items : List CriteriaItem) → {j k : Joining} → j.Alike R k →
      Alike R (compileItems binary items j) (compileItems binary' items k)
  | [], _, _, hjk => by
    rw [compileItems, compileItems]
    exact (hjk.finish congruent).lift
  | .connector token :: rest, _, _, hjk => by
    rw [compileItems, compileItems]
    exact compileItems_alike congruent h rest (hjk.connect token)
  | .clause c :: rest, j, k, hjk => by
    rw [compileItems, compileItems, hjk.disagrees]
    cases k.disagrees with
    | true => exact .error _
    | false =>
      exact (compileWith_alike congruent h c).bind fun _ _ hpq =>
        compileItems_alike congruent h rest (hjk.push hpq)

end

end Compile

end Filter

end DataGrid
