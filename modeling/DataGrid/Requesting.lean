import DataGrid.SumZeros

/-!
# Work on one request

`Requesting` is work that resolves paths with the memory of one resolver and that fails for either
cause of a `RequestError`.

* `compiling` and `reading` take in work that fails for one of the causes.
* `zeroSums` puts zeros in place of null sums, in the totals first and then in the groups. Both
  share what is known of the zeros.
-/

namespace DataGrid

/-- Work that resolves paths, compiles and reads. -/
abbrev Requesting (α : Type) := ExceptT RequestError (StateM Resolver) α

namespace Requesting

variable {α : Type}

/-- Work that resolves, within work that also reads. -/
def compiling (work : Resolving α) : Requesting α :=
  ExceptT.mk fun r =>
    match work.run.run r with
    | (.ok a, r) => (.ok a, r)
    | (.error e, r) => (.error (.compile e), r)

/-- Reading, within work that also resolves. -/
def reading (outcome : Except ReadError α) : Requesting α :=
  ExceptT.mk fun r => (outcome.mapError .read, r)

/-- Puts in zeros that are known or that the resolver at hand finds; the zeros known afterwards come
along. -/
def zeroing (zeros : List (String × Value))
    (fix : SumZeros → SumZeros.Outcome α × SumZeros) :
    Requesting (α × List (String × Value)) :=
  ExceptT.mk fun r =>
    match fix ⟨r, zeros⟩ with
    | (⟨result, none⟩, d) => (.ok (result, d.zeros), d.resolver)
    | (⟨_, some e⟩, d) => (.error (.compile e), d.resolver)

/-- Puts zeros in place of null sums in totals; without totals there is nothing to do. -/
def zeroTotals (total : List Summary) :
    Option (List Value) → Requesting (Option (List Value) × List (String × Value))
  | none => return (none, [])
  | some values => do
    let (values, zeros) ← zeroing [] (·.fillValues total values)
    return (some values, zeros)

/-- Puts zeros in place of null sums in the totals, then in the summaries of a tree. -/
def zeroSums (total group : List Summary) (data : Subtree α) (totals : Option (List Value)) :
    Requesting (Subtree α × Option (List Value)) := do
  let (totals, zeros) ← zeroTotals total totals
  match data with
  | .groups gs => do
    let (gs, _) ← zeroing zeros (·.fillGroups group gs)
    return (.groups gs, totals)
  | other => return (other, totals)

end Requesting

end DataGrid
