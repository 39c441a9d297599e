import DataGrid.Proofs.Outcome
import DataGrid.Proofs.Value.Ordering

/-!
# What sorting gives

* `Sorting.arrange` gives the elements again (`arrange_perm`), in order if the comparison is a
  preorder of their keys (`pairwise_arrange`). What is level stays in the order in which it stood
  (`pairwise_arrange_ahead`).
* `Sorter.sort` gives the records again (`sort_perm`).
-/

namespace DataGrid

namespace Sorting

section Arrange

variable {α β : Type} {P : β → Prop} {cmp : β → β → Ordering} {key : α → β}

theorem arrange_perm (cmp : α → α → Ordering) (xs : List α) : (arrange cmp xs).Perm xs := by
  have grow : ∀ sorted : List α,
      (xs.foldl (fun sorted x => insertBack cmp x sorted) sorted).Perm (xs ++ sorted) := by
    induction xs with
    | nil => exact fun sorted => .refl _
    | cons x xs ih =>
      intro sorted
      rw [List.foldl_cons]
      exact (ih _).trans (((insertBack_perm cmp x sorted).append_left xs).trans List.perm_middle)
  have h := grow []
  rw [List.append_nil] at h
  exact (List.reverse_perm _).trans h

theorem insertBack_map (cmp : α → α → Ordering) (g : β → α) (x : β) (xs : List β) :
    insertBack cmp (g x) (xs.map g) = (insertBack (fun a b => cmp (g a) (g b)) x xs).map g := by
  induction xs with
  | nil => rfl
  | cons y rest ih =>
    rw [List.map_cons, insertBack, insertBack]
    split
    · rw [ih, List.map_cons]
    · rfl

/-- A list of images is sorted as the elements are by their images. -/
theorem arrange_map (cmp : α → α → Ordering) (g : β → α) (xs : List β) :
    arrange cmp (xs.map g) = (arrange (fun a b => cmp (g a) (g b)) xs).map g := by
  have grow : ∀ sorted : List β,
      (xs.map g).foldl (fun sorted x => insertBack cmp x sorted) (sorted.map g)
        = (xs.foldl (fun sorted x => insertBack (fun a b => cmp (g a) (g b)) x sorted)
          sorted).map g := by
    induction xs with
    | nil => exact fun _ => rfl
    | cons x xs ih =>
      intro sorted
      rw [List.map_cons, List.foldl_cons, List.foldl_cons, insertBack_map, ih]
  rw [arrange, arrange, List.map_reverse]
  exact congrArg List.reverse (grow [])

/-- An element stands before another if it comes first, or if it is level and comes first another
way. -/
def Ahead (cmp : α → α → Ordering) (R : α → α → Prop) (a b : α) : Prop :=
  cmp a b = .lt ∨ cmp a b = .eq ∧ R a b

variable {R : α → α → Prop}

theorem Ahead.isLE {cmp : α → α → Ordering} {a b : α} (h : Ahead cmp R a b) : (cmp a b).isLE := by
  rcases h with lt | ⟨eq, -⟩
  · rw [lt]
    rfl
  · rw [eq]
    rfl

theorem Ahead.of_isLE {cmp : α → α → Ordering} {a b : α} (h : (cmp a b).isLE) (hR : R a b) :
    Ahead cmp R a b :=
  (Ordering.isLE_iff_eq_lt_or_eq_eq.1 h).imp_right fun eq => ⟨eq, hR⟩

/-- Putting an element in that is later than all others keeps a backwards list in order. -/
theorem pairwise_insertBack (h : PlacesOn P cmp) {x : α} {xs : List α} (hx : P (key x))
    (hP : ∀ y ∈ xs, P (key y)) (later : ∀ y ∈ xs, R y x)
    (sorted : xs.Pairwise fun a b => Ahead (fun a b => cmp (key a) (key b)) R b a) :
    (insertBack (fun a b => cmp (key a) (key b)) x xs).Pairwise
      fun a b => Ahead (fun a b => cmp (key a) (key b)) R b a := by
  induction xs with
  | nil => exact List.pairwise_singleton _ _
  | cons y rest ih =>
    obtain ⟨hy, hrest⟩ := List.forall_mem_cons.1 hP
    obtain ⟨laterY, laterRest⟩ := List.forall_mem_cons.1 later
    obtain ⟨below, sorted⟩ := List.pairwise_cons.1 sorted
    rw [insertBack]
    split
    -- the value goes behind all that are greater
    next less =>
      refine List.pairwise_cons.2 ⟨fun z hz => ?_, ih hrest laterRest sorted⟩
      rcases List.mem_cons.1 ((insertBack_perm _ x rest).mem_iff.1 hz) with rfl | hz
      · exact .inl less
      · exact below z hz
    next notLess =>
      have le := h.total hx hy notLess
      refine List.pairwise_cons.2 ⟨fun z hz => ?_, List.pairwise_cons.2 ⟨below, sorted⟩⟩
      rcases List.mem_cons.1 hz with rfl | hz
      · exact .of_isLE le laterY
      · exact .of_isLE (h.trans (hrest z hz) hy hx (below z hz).isLE le) (laterRest z hz)

/-- A list comes out in the order of its keys, and what is level in the order in which it stands. -/
theorem pairwise_arrange_ahead (h : PlacesOn P cmp) {xs : List α} (hP : ∀ x ∈ xs, P (key x))
    (order : xs.Pairwise R) : (arrange (fun a b => cmp (key a) (key b)) xs).Pairwise
      (Ahead (fun a b => cmp (key a) (key b)) R) := by
  have grow : ∀ sorted : List α, (∀ x ∈ sorted, P (key x)) → (∀ y ∈ sorted, ∀ x ∈ xs, R y x) →
      (sorted.Pairwise fun a b => Ahead (fun a b => cmp (key a) (key b)) R b a) →
      (xs.foldl (fun sorted x => insertBack (fun a b => cmp (key a) (key b)) x sorted)
        sorted).Pairwise fun a b => Ahead (fun a b => cmp (key a) (key b)) R b a := by
    induction xs with
    | nil => exact fun sorted _ _ h => h
    | cons x xs ih =>
      intro sorted hsorted later pairwise
      obtain ⟨hx, hxs⟩ := List.forall_mem_cons.1 hP
      obtain ⟨first, order⟩ := List.pairwise_cons.1 order
      refine ih hxs order _ (fun y hy => ?_) (fun y hy z hz => ?_) (pairwise_insertBack h hx hsorted
        (fun y hy => later y hy x List.mem_cons_self) pairwise)
      · rcases List.mem_cons.1 ((insertBack_perm _ x sorted).mem_iff.1 hy) with rfl | hy
        · exact hx
        · exact hsorted y hy
      · rcases List.mem_cons.1 ((insertBack_perm _ x sorted).mem_iff.1 hy) with rfl | hy
        · exact first z hz
        · exact later y hy z (List.mem_cons_of_mem x hz)
  rw [arrange, List.pairwise_reverse]
  exact grow [] (fun x hx => nomatch hx) (fun y hy => nomatch hy) .nil

/-- A list comes out in the order of its keys. -/
theorem pairwise_arrange (h : PlacesOn P cmp) {xs : List α} (hP : ∀ x ∈ xs, P (key x)) :
    (arrange (fun a b => cmp (key a) (key b)) xs).Pairwise
      fun a b => (cmp (key a) (key b)).isLE :=
  (pairwise_arrange_ahead (R := fun _ _ => True) h hP
    (List.pairwise_of_forall fun _ _ => trivial)).imp
    Ahead.isLE

end Arrange

end Sorting

namespace Sorter

variable {s : Sorter} {records sorted : List Value}

theorem map_snd_of_keyed {pairs : List (List Value × Value)} (h : s.keyed records = .ok pairs) :
    pairs.map Prod.snd = records :=
  Outcome.map_snd_of_mapM_eq_ok h

/-- Sorting loses, doubles and changes no record. -/
theorem sort_perm (h : s.sort records = ⟨sorted, none⟩) : sorted.Perm records := by
  rw [sort] at h
  split at h
  · cases h
    exact .refl _
  · split at h
    next pairs hpairs =>
      cases h
      rw [← map_snd_of_keyed hpairs]
      exact (Sorting.arrange_perm _ pairs).map Prod.snd
    next => cases h

end Sorter

end DataGrid
