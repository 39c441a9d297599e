import DataGrid.Group

/-!
# Summaries of a tree

* `Subtree.resum` changes the summaries of a tree and nothing else, and `Subtree.dress` gives every
  group a summary of the rows under it.
* `Subtree.Summed` relates two trees that are one but for their summaries, by the rows under each
  group. Without summaries such trees are equal (`Summed.bare`).
-/

namespace DataGrid

namespace Subtree

variable {α : Type}

mutual

/-- The tree with other summaries. -/
def resum (f : Option (List Value) → Option (List Value)) : Subtree α → Subtree α
  | groups gs => groups (resumAll f gs)
  | rows rs => rows rs
  | dropped => dropped

/-- Groups with other summaries, and so what stands under them. -/
def resumAll (f : Option (List Value) → Option (List Value)) : List (Group α) → List (Group α)
  | [] => []
  | .mk key items count summary :: rest =>
    .mk key (resum f items) count (f summary) :: resumAll f rest

end

mutual

/-- The tree with summaries made of the rows under each group. -/
def dress (f : List α → Option (List Value)) : Subtree α → Subtree α
  | groups gs => groups (dressAll f gs)
  | rows rs => rows rs
  | dropped => dropped

/-- Groups with summaries made of their rows, and so what stands under them. -/
def dressAll (f : List α → Option (List Value)) : List (Group α) → List (Group α)
  | [] => []
  | .mk key items count summary :: rest =>
    .mk key (dress f items) count ((f (leafRows items)).or summary) :: dressAll f rest

end

/-- The tree without summaries. -/
def bare (t : Subtree α) : Subtree α := t.resum fun _ => none

mutual

theorem bare_resum (f : Option (List Value) → Option (List Value)) : (t : Subtree α) →
    (t.resum f).bare = t.bare
  | groups gs => congrArg groups (bare_resumAll f gs)
  | rows _ | dropped => rfl

theorem bare_resumAll (f : Option (List Value) → Option (List Value)) : (gs : List (Group α)) →
    resumAll (fun _ => none) (resumAll f gs) = resumAll (fun _ => none) gs
  | [] => rfl
  | .mk key items count summary :: rest => by
    have under := bare_resum f items
    rw [bare, bare] at under
    rw [resumAll, resumAll, resumAll, under, bare_resumAll f rest]

end

mutual

theorem leafRows_resum (f : Option (List Value) → Option (List Value)) : (t : Subtree α) →
    leafRows (t.resum f) = leafRows t
  | groups gs => leafRowsOf_resumAll f gs
  | rows _ | dropped => rfl

theorem leafRowsOf_resumAll (f : Option (List Value) → Option (List Value)) :
    (gs : List (Group α)) → leafRowsOf (resumAll f gs) = leafRowsOf gs
  | [] => rfl
  | .mk key items count summary :: rest => by
    rw [resumAll, leafRowsOf, leafRowsOf, leafRows_resum f items, leafRowsOf_resumAll f rest]

end

/-- A tree that is made of groups, summaries apart, is made of groups. -/
theorem groups_of_bare {t : Subtree α} {gs : List (Group α)} (h : t.bare = (groups gs).bare) :
    ∃ gs', t = groups gs' ∧ resumAll (fun _ => none) gs' = resumAll (fun _ => none) gs := by
  cases t with
  | groups gs' => exact ⟨gs', rfl, groups.inj h⟩
  | rows rs => cases h
  | dropped => cases h

mutual

theorem leafRows_dress (f : List α → Option (List Value)) : (t : Subtree α) →
    leafRows (t.dress f) = leafRows t
  | groups gs => leafRowsOf_dressAll f gs
  | rows _ | dropped => rfl

theorem leafRowsOf_dressAll (f : List α → Option (List Value)) :
    (gs : List (Group α)) → leafRowsOf (dressAll f gs) = leafRowsOf gs
  | [] => rfl
  | .mk key items count summary :: rest => by
    rw [dressAll, leafRowsOf, leafRowsOf, leafRows_dress f items, leafRowsOf_dressAll f rest]

end

mutual

theorem dress_none : (t : Subtree α) → t.dress (fun _ => none) = t
  | groups gs => congrArg groups (dressAll_none gs)
  | rows _ | dropped => rfl

theorem dressAll_none : (gs : List (Group α)) → dressAll (fun _ => none) gs = gs
  | [] => rfl
  | .mk key items count summary :: rest => by
    rw [dressAll, dress_none items, dressAll_none rest, Option.none_or]

end

mutual

/-- Two trees are one but for the summaries of groups. The rows under a group relate its summary in
the second tree to that in the first. -/
inductive Summed (S : List α → Option (List Value) → Option (List Value) → Prop) :
    Subtree α → Subtree α → Prop where
  /-- groups one by one -/
  | groups {gs gs' : List (Group α)} (h : SummedAll S gs gs') : Summed S (.groups gs) (.groups gs')
  /-- the same rows -/
  | rows (rs : List α) : Summed S (.rows rs) (.rows rs)
  /-- dropped in both -/
  | dropped : Summed S .dropped .dropped

/-- Two lists of groups are one but for summaries. -/
inductive SummedAll (S : List α → Option (List Value) → Option (List Value) → Prop) :
    List (Group α) → List (Group α) → Prop where
  /-- no groups -/
  | nil : SummedAll S [] []
  /-- a group with its key and its count, and the groups after it -/
  | cons {key : Value} {items items' : Subtree α} {count : Option Nat}
    {summary summary' : Option (List Value)} {rest rest' : List (Group α)}
    (under : Summed S items items') (here : S (leafRows items) summary summary')
    (after : SummedAll S rest rest') :
    SummedAll S (.mk key items count summary :: rest) (.mk key items' count summary' :: rest')

end

section Summed

variable {S : List α → Option (List Value) → Option (List Value) → Prop}

mutual

theorem Summed.bare : (t : Subtree α) → {t' : Subtree α} → t.Summed S t' → t'.bare = t.bare
  | .groups gs, _, .groups h => congrArg Subtree.groups (SummedAll.bare gs h)
  | .rows _, _, .rows _ | .dropped, _, .dropped => rfl

theorem SummedAll.bare : (gs : List (Group α)) → {gs' : List (Group α)} → SummedAll S gs gs' →
    resumAll (fun _ => none) gs' = resumAll (fun _ => none) gs
  | [], _, .nil => rfl
  | .mk _ items _ _ :: rest, _, .cons under _ after => by
    have under := Summed.bare items under
    rw [Subtree.bare, Subtree.bare] at under
    rw [resumAll, resumAll, under, SummedAll.bare rest after]

end

mutual

/-- A tree that is dressed is summed by what it is dressed with. -/
theorem summed_dress {P : α → Prop} {f : List α → Option (List Value)}
    (h : ∀ rows, (∀ row ∈ rows, P row) → ∀ summary, S rows summary ((f rows).or summary)) :
    (t : Subtree α) → (∀ row ∈ leafRows t, P row) → t.Summed S (t.dress f)
  | .groups gs, ht => .groups (summedAll_dressAll h gs ht)
  | .rows rs, _ => .rows rs
  | .dropped, _ => .dropped

theorem summedAll_dressAll {P : α → Prop} {f : List α → Option (List Value)}
    (h : ∀ rows, (∀ row ∈ rows, P row) → ∀ summary, S rows summary ((f rows).or summary)) :
    (gs : List (Group α)) → (∀ row ∈ leafRowsOf gs, P row) → SummedAll S gs (dressAll f gs)
  | [], _ => .nil
  | .mk _ items _ summary :: rest, ht => by
    rw [leafRowsOf, List.forall_mem_append] at ht
    exact .cons (summed_dress h items ht.1) (h _ ht.1 summary) (summedAll_dressAll h rest ht.2)

end

end Summed

end Subtree

end DataGrid
