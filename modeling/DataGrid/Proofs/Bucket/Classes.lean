import DataGrid.Proofs.Bucket
import Mathlib.Data.Multiset.MapFold

/-!
# Buckets that hold classes of rows

`Bucket.ClassesOf` says that buckets are the classes of rows by their keys, however they were
formed and in whatever order they stand. Two ways to form them come to the same: the buckets match
one to one, with keys that are the same and the same rows in the same order (`ClassesOf.matching`).
-/

namespace DataGrid.Bucket

variable {κ α : Type} {same : κ → κ → Bool} {key : α → κ} {rows : List α}

/-- Buckets are the classes of rows by their keys. -/
structure ClassesOf (same : κ → κ → Bool) (key : α → κ) (rows : List α)
    (buckets : List (κ × List α)) : Prop where
  /-- no two buckets have the same key -/
  apart : (buckets.map Prod.fst).Pairwise fun k l => same k l = false
  /-- a bucket has the rows with its key, in their order -/
  members : ∀ b ∈ buckets, b.2 = rows.filter fun row => same b.1 (key row)
  /-- no bucket is empty -/
  nonempty : ∀ b ∈ buckets, b.2 ≠ []
  /-- every row has the key of a bucket -/
  whole : ∀ row ∈ rows, ∃ b ∈ buckets, same b.1 (key row) = true

/-- Buckets match one to one: they have the same keys, each with the same rows in the same order. -/
def Matching (same : κ → κ → Bool) (bs cs : List (κ × List α)) : Prop :=
  Multiset.Rel (fun b c : κ × List α => same b.1 c.1 = true ∧ b.2 = c.2) bs cs

/-! ### Keys that match one to one -/

theorem rel_of_forall₂ {β : Type} {R : α → β → Prop} {xs : List α} {ys : List β}
    (h : List.Forall₂ R xs ys) : Multiset.Rel R xs ys := by
  induction h with
  | nil => exact .zero
  | cons first _ ih => exact .cons first ih

/-- Keys that match one to one with keys that match others do so with these. -/
theorem rel_trans (eqv : Equivalence fun k l => same k l = true) {ks ls ms : Multiset κ}
    (h : Multiset.Rel (same · · = true) ks ls) (h' : Multiset.Rel (same · · = true) ls ms) :
    Multiset.Rel (same · · = true) ks ms :=
  have : IsTrans κ (same · · = true) := ⟨fun _ _ _ => eqv.trans⟩
  h.trans _ h'

theorem rel_symm (eqv : Equivalence fun k l => same k l = true) {ks ls : Multiset κ}
    (h : Multiset.Rel (same · · = true) ks ls) : Multiset.Rel (same · · = true) ls ks :=
  (Multiset.rel_flip.2 h).mono fun _ _ _ _ => eqv.symm

/-- Buckets that match have keys that match. -/
theorem Matching.keys {bs cs : List (κ × List α)} (h : Matching same bs cs) :
    Multiset.Rel (same · · = true) (bs.map Prod.fst : List κ) (cs.map Prod.fst : List κ) := by
  rw [← Multiset.map_coe, ← Multiset.map_coe, Multiset.rel_map]
  exact h.mono fun _ _ _ _ hbc => hbc.1

/-! ### Classes -/

namespace ClassesOf

variable {bs cs : List (κ × List α)}

theorem exists_same (eqv : Equivalence fun k l => same k l = true)
    (h : ClassesOf same key rows bs) (h' : ClassesOf same key rows cs) :
    ∀ b ∈ bs, ∃ c ∈ cs, same b.1 c.1 = true := by
  intro b hb
  obtain ⟨row, hrow⟩ := List.exists_mem_of_ne_nil _ (h.nonempty b hb)
  rw [h.members b hb, List.mem_filter] at hrow
  obtain ⟨c, hc, hcrow⟩ := h'.whole row hrow.1
  exact ⟨c, hc, eqv.trans hrow.2 (eqv.symm hcrow)⟩

/-- Buckets of one class have the same rows. -/
theorem rows_eq (eqv : Equivalence fun k l => same k l = true) (h : ClassesOf same key rows bs)
    (h' : ClassesOf same key rows cs) {b c : κ × List α} (hb : b ∈ bs) (hc : c ∈ cs)
    (hbc : same b.1 c.1 = true) : b.2 = c.2 := by
  rw [h.members b hb, h'.members c hc]
  apply List.filter_congr
  intro row _
  exact same_congr_left eqv hbc (key row)

/-- The classes of rows match, however they are formed. -/
theorem matching (eqv : Equivalence fun k l => same k l = true) (h : ClassesOf same key rows bs)
    (h' : ClassesOf same key rows cs) : Matching same bs cs := by
  have onKeys : Equivalence fun b c : κ × List α => same b.1 c.1 = true :=
    ⟨fun b => eqv.refl b.1, eqv.symm, eqv.trans⟩
  have there : ∀ c ∈ cs, ∃ b ∈ bs, same b.1 c.1 = true := by
    intro c hc
    obtain ⟨b, hb, hcb⟩ := h'.exists_same eqv h c hc
    exact ⟨b, hb, eqv.symm hcb⟩
  obtain ⟨ms, hms, perm⟩ := exists_matching onKeys (List.pairwise_map.1 h.apart)
    (List.pairwise_map.1 h'.apart) (h.exists_same eqv h') there
  rw [Matching, ← Multiset.coe_eq_coe.2 perm]
  exact (rel_of_forall₂ hms).mono fun b hb m hm hbm =>
    ⟨hbm, h.rows_eq eqv h' hb (perm.mem_iff.1 hm) hbm⟩

/-- Among rows of which no two have the same key, one row has the key of a row. -/
theorem filter_eq_singleton (eqv : Equivalence fun k l => same k l = true)
    (apart : (rows.map key).Pairwise fun k l => same k l = false) {row : α} (hrow : row ∈ rows) :
    (rows.filter fun other => same (key row) (key other)) = [row] := by
  induction rows with
  | nil => cases hrow
  | cons first rest ih =>
    obtain ⟨others, apart⟩ := List.pairwise_cons.1 apart
    rcases List.mem_cons.1 hrow with rfl | hrow
    · rw [List.filter_cons, if_pos (eqv.refl _), List.filter_eq_nil_iff.2]
      intro other hother
      simp [others _ (List.mem_map_of_mem hother)]
    · have before := not_same_symm eqv (others _ (List.mem_map_of_mem hrow))
      rw [List.filter_cons, before, if_neg Bool.false_ne_true, ih apart hrow]

/-- Rows of which no two have the same key are classes of their own. -/
theorem singletons (eqv : Equivalence fun k l => same k l = true)
    (apart : (rows.map key).Pairwise fun k l => same k l = false) :
    ClassesOf same key rows (rows.map fun row => (key row, [row])) := by
  constructor
  case apart => rwa [List.map_map]
  case members =>
    intro b hb
    obtain ⟨row, hrow, rfl⟩ := List.mem_map.1 hb
    exact (filter_eq_singleton eqv apart hrow).symm
  case nonempty =>
    intro b hb
    obtain ⟨row, -, rfl⟩ := List.mem_map.1 hb
    exact List.cons_ne_nil _ _
  case whole =>
    intro row hrow
    exact ⟨_, List.mem_map_of_mem hrow, eqv.refl _⟩

end ClassesOf

end DataGrid.Bucket
