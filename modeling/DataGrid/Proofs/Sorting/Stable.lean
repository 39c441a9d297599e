import DataGrid.Proofs.Sorting

/-!
# Sorting keeps what comes out level in order

`Sorting.StablySorted` says of a list that it is another one in the order of a comparison, and that
elements that the comparison leaves level stand as they did. `Sorting.arrange` does not need an
order to keep elements as they stand: those that no comparison puts before one another stay
(`filter_arrange`). With the order of `pairwise_arrange` it sorts stably (`stablySorted_arrange`),
and so does `Sorter.sort`, which arranges records by their keys (`Sorter.sort_eq`).
-/

namespace DataGrid

namespace Sorting

variable {α : Type}

/-- A list is another one in order, and what is level stands as it did. -/
structure StablySorted (cmp : α → α → Ordering) (xs ys : List α) : Prop where
  /-- nothing is lost, doubled or changed -/
  perm : ys.Perm xs
  /-- nothing stands behind what is greater -/
  sorted : ys.Pairwise fun a b => (cmp a b).isLE
  /-- the elements level with one of them stand as they did -/
  stable : ∀ a ∈ xs, ys.filter (fun b => cmp a b = .eq) = xs.filter fun b => cmp a b = .eq

namespace StablySorted

variable {cmp cmp' : α → α → Ordering} {xs ys : List α}

/-- The elements with a property are sorted in their turn. -/
theorem filter (h : StablySorted cmp xs ys) (p : α → Bool) :
    StablySorted cmp (xs.filter p) (ys.filter p) where
  perm := h.perm.filter p
  sorted := h.sorted.filter p
  stable a ha := by
    rw [List.filter_comm, h.stable a (List.mem_filter.1 ha).1, List.filter_comm]

/-- Only the comparisons among the elements matter. -/
theorem congr (h : StablySorted cmp xs ys) (same : ∀ a ∈ xs, ∀ b ∈ xs, cmp a b = cmp' a b) :
    StablySorted cmp' xs ys where
  perm := h.perm
  sorted := by
    refine h.sorted.imp_of_mem fun {a b} ha hb le => ?_
    rwa [← same a (h.perm.mem_iff.1 ha) b (h.perm.mem_iff.1 hb)]
  stable a ha := by
    have level : ∀ zs : List α, (∀ b ∈ zs, b ∈ xs) →
        zs.filter (fun b => cmp' a b = .eq) = zs.filter fun b => cmp a b = .eq := by
      intro zs hzs
      apply List.filter_congr
      intro b hb
      rw [same a ha b (hzs b hb)]
    rw [level ys fun b hb => h.perm.mem_iff.1 hb, level xs fun b hb => hb, h.stable a ha]

end StablySorted

/-- Elements that no comparison puts before one another stand as they did, behind one that is put
in. -/
theorem filter_insertBack {cmp : α → α → Ordering} {p : α → Bool} {x : α} {xs : List α}
    (level : ∀ y ∈ xs, p x = true → p y = true → cmp x y ≠ .lt) :
    (insertBack cmp x xs).filter p = (x :: xs).filter p := by
  induction xs with
  | nil => rfl
  | cons y rest ih =>
    obtain ⟨hy, hrest⟩ := List.forall_mem_cons.1 level
    rw [insertBack]
    split
    next less =>
      rw [List.filter_cons, ih hrest, List.filter_cons, List.filter_cons, List.filter_cons]
      -- one of the two does not have the property, as the new one goes behind the other
      cases hpx : p x with
      | false => rfl
      | true =>
        cases hpy : p y with
        | false => rfl
        | true => exact absurd less (hy hpx hpy)
    next => rfl

theorem filter_arrange {cmp : α → α → Ordering} {p : α → Bool} {xs : List α}
    (level : ∀ a ∈ xs, ∀ b ∈ xs, p a = true → p b = true → cmp a b ≠ .lt) :
    (arrange cmp xs).filter p = xs.filter p := by
  have grow : ∀ (more sorted : List α), (∀ a ∈ more, a ∈ xs) → (∀ a ∈ sorted, a ∈ xs) →
      (more.foldl (fun sorted x => insertBack cmp x sorted) sorted).filter p
        = (more.filter p).reverse ++ sorted.filter p := by
    intro more
    induction more with
    | nil => exact fun _ _ _ => rfl
    | cons x more ih =>
      intro sorted hmore hsorted
      obtain ⟨hx, hmore⟩ := List.forall_mem_cons.1 hmore
      have inside : ∀ a ∈ insertBack cmp x sorted, a ∈ xs := by
        intro a ha
        rcases List.mem_cons.1 ((insertBack_perm cmp x sorted).mem_iff.1 ha) with rfl | ha
        · exact hx
        · exact hsorted a ha
      rw [List.foldl_cons, ih _ hmore inside,
        filter_insertBack fun y hy => level x hx y (hsorted y hy), List.filter_cons,
        List.filter_cons]
      split
      · rw [List.reverse_cons, List.append_assoc, List.singleton_append]
      · rfl
  have whole := grow xs [] (fun _ h => h) fun _ h => nomatch h
  rw [arrange, List.filter_reverse, whole, List.filter_nil, List.append_nil, List.reverse_reverse]

/-- What no comparison puts before one another stays as it is. -/
theorem arrange_eq_self {cmp : α → α → Ordering} {xs : List α}
    (level : ∀ a ∈ xs, ∀ b ∈ xs, cmp a b ≠ .lt) : arrange cmp xs = xs := by
  have all : ∀ ys : List α, ys.filter (fun _ => true) = ys := fun ys =>
    List.filter_eq_self.2 fun _ _ => rfl
  rw [← all (arrange cmp xs), filter_arrange fun a ha b hb _ _ => level a ha b hb, all]

/-- A list is sorted stably if the comparison is an order of the keys. -/
theorem stablySorted_arrange {β : Type} {P : β → Prop} {cmp : β → β → Ordering} {key : α → β}
    (orders : OrdersOn P cmp) {xs : List α} (hP : ∀ x ∈ xs, P (key x)) :
    StablySorted (fun a b => cmp (key a) (key b)) xs
      (arrange (fun a b => cmp (key a) (key b)) xs) := by
  refine ⟨arrange_perm _ xs, pairwise_arrange orders.places hP, fun a ha => ?_⟩
  refine filter_arrange fun b hb c hc hab hac => ?_
  -- two that are level with a third have its key
  have same : key b = key c :=
    (orders.eq_of (hP a ha) (hP b hb) (of_decide_eq_true hab)).symm.trans
      (orders.eq_of (hP a ha) (hP c hc) (of_decide_eq_true hac))
  rw [same, orders.refl (hP c hc)]
  decide

end Sorting

namespace Sorter

open Sorting (StablySorted arrange)

variable {s : Sorter} {records sorted : List Value} {key : Value → List Value}

/-- Records whose keys can be read are arranged by them. -/
theorem sort_eq (keys : ∀ record ∈ records, s.keyOf record = .ok (key record)) :
    s.sort records = ⟨arrange (fun a b => s.compare (key a) (key b)) records, none⟩ := by
  rw [sort]
  split
  next few =>
    refine congrArg (Outcome.mk · none) (Eq.symm ?_)
    rcases Bool.or_eq_true_iff.1 few with none | short
    · apply Sorting.arrange_eq_self
      intro a _ b _
      simp [compare, List.isEmpty_iff.1 none, Sorting.compareKeys]
    · rcases records with _ | ⟨record, _ | ⟨_, _⟩⟩
      · rfl
      · rfl
      · simp only [List.length_cons, decide_eq_true_eq] at short
        omega
  next =>
    have pairs : s.keyed records = .ok (records.map fun record => (key record, record)) :=
      Outcome.mapM_ok fun record hrecord => by rw [keys record hrecord]; rfl
    rw [pairs]
    refine congrArg (Outcome.mk · none) ?_
    rw [Sorting.arrange_map, List.map_map]
    exact List.map_id _

/-- Records whose keys can be read and are exact are sorted stably. -/
theorem stablySorted_sort (h : s.sort records = ⟨sorted, none⟩)
    (keys : ∀ record ∈ records, s.keyOf record = .ok (key record))
    (tuples : ∀ record ∈ records, Sorting.IsTuple s.keys.length (key record)) :
    StablySorted (fun a b => s.compare (key a) (key b)) records sorted := by
  have orders := Sorting.compareKeys_orders (s.keys.map Prod.snd)
  rw [List.length_map] at orders
  rw [sort_eq keys] at h
  cases h
  exact Sorting.stablySorted_arrange orders tuples

end Sorter

end DataGrid
