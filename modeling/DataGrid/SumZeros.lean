import DataGrid.RunningSum
import DataGrid.Group
import DataGrid.Summary

/-!
# Sums of no values

A sum over no values may come as null. `SumZeros` puts the zero of the selector's type in its
place, and remembers the zero of each selector.

* `SumZeros.fillValues` goes through values that stand as their summaries do, up to the first
  whose selector does not resolve; what was put in place before stays.
* `SumZeros.fillGroups` does so for the summary of every group of a tree.
-/

namespace DataGrid

/-- The zeros known so far, and the resolver of the selectors. -/
structure SumZeros where
  /-- resolves the selectors -/
  resolver : Resolver
  /-- the zero of each selector that was needed -/
  zeros : List (String × Value)

namespace SumZeros

/-- Nothing known yet. -/
def fresh (resolver : Resolver) : SumZeros := ⟨resolver, []⟩

/-- What is left after values were gone through, and the error at which it stopped. -/
structure Outcome (α : Type) where
  /-- the values afterwards -/
  result : α
  /-- the error of a selector that does not resolve -/
  error : Option CompileError

/-- The zero of a selector. -/
def zeroOf (d : SumZeros) (selector : String) : Except CompileError Value × SumZeros :=
  match d.zeros.lookup selector with
  | some zero => (.ok zero, d)
  | none =>
    match d.resolver.lookup selector with
    | (.ok a, resolver) =>
      let zero := TypedSum.sumOfNone a.type
      (.ok zero, ⟨resolver, (selector, zero) :: d.zeros⟩)
    | (.error e, resolver) => (.error e, { d with resolver := resolver })

/-- The value of a summary with a zero in place of a null sum. -/
def fillValue (d : SumZeros) (s : Summary) (v : Value) :
    Except CompileError Value × SumZeros :=
  match s.kind, v.isNull, s.selector with
  | .sum, true, some selector => d.zeroOf selector
  | _, _, _ => (.ok v, d)

/-- The values of summaries with zeros in place of null sums. -/
def fillValues : SumZeros → List Summary → List Value → Outcome (List Value) × SumZeros
  | d, s :: ss, v :: vs =>
    match d.fillValue s v with
    | (.ok w, d) =>
      let (rest, d) := fillValues d ss vs
      (⟨w :: rest.result, rest.error⟩, d)
    | (.error e, d) => (⟨v :: vs, some e⟩, d)
  | d, _, vs => (⟨vs, none⟩, d)

/-- The summary of a group with zeros in place of null sums. -/
def fillSummary (d : SumZeros) (ss : List Summary) :
    Option (List Value) → Outcome (Option (List Value)) × SumZeros
  | some values =>
    let (fixed, d) := d.fillValues ss values
    (⟨some fixed.result, fixed.error⟩, d)
  | none => (⟨none, none⟩, d)

section Tree

variable {α : Type}

mutual

/-- What stands under a group, with zeros in place of null sums in all summaries. -/
def fillSubtree (d : SumZeros) (ss : List Summary) :
    Subtree α → Outcome (Subtree α) × SumZeros
  | .groups gs =>
    let (fixed, d) := fillTree d ss gs
    (⟨.groups fixed.result, fixed.error⟩, d)
  | .rows rs => (⟨.rows rs, none⟩, d)
  | .dropped => (⟨.dropped, none⟩, d)

/-- Groups with zeros in place of null sums in all summaries: a group first, then what stands under
it, then the groups after it. -/
def fillTree (d : SumZeros) (ss : List Summary) :
    List (Group α) → Outcome (List (Group α)) × SumZeros
  | [] => (⟨[], none⟩, d)
  | .mk key items count summary :: rest =>
    match fillSummary d ss summary with
    | (⟨summary, some e⟩, d) => (⟨.mk key items count summary :: rest, some e⟩, d)
    | (⟨summary, none⟩, d) =>
      match fillSubtree d ss items with
      | (⟨items, some e⟩, d) => (⟨.mk key items count summary :: rest, some e⟩, d)
      | (⟨items, none⟩, d) =>
        let (fixed, d) := fillTree d ss rest
        (⟨.mk key items count summary :: fixed.result, fixed.error⟩, d)

end

/-- Groups with zeros in place of null sums; without summaries nothing is looked at. -/
def fillGroups (d : SumZeros) (ss : List Summary) (gs : List (Group α)) :
    Outcome (List (Group α)) × SumZeros :=
  if ss.isEmpty then (⟨gs, none⟩, d) else fillTree d ss gs

end Tree

/-- The number of selectors whose zero is known. -/
def knownCount (d : SumZeros) : Nat := d.zeros.length

end SumZeros

end DataGrid
