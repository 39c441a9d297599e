import DataGrid.Proofs.Grouping.Outline

/-!
# Trees of rows in another order

`Subtree.Reordered` says of two trees that they are one but for the order of siblings and of the
rows under innermost groups; a relation ties the keys of the two. Rows in another order make such a
tree (`Grouping.reorderedAll_tree`), and it stays one with summaries that do not hang on the order
of the rows (`Subtree.Reordered.dress`).
-/

namespace DataGrid

namespace Subtree

variable {α : Type}

mutual

/-- Two trees are one but for the order of siblings and of rows, and for their keys. -/
inductive Reordered (K : Value → Value → Prop) : Subtree α → Subtree α → Prop where
  /-- groups in any order -/
  | groups {gs gs' : List (Group α)} (h : ReorderedAll K gs gs') :
    Reordered K (.groups gs) (.groups gs')
  /-- rows in any order -/
  | rows {rs rs' : List α} (h : rs'.Perm rs) : Reordered K (.rows rs) (.rows rs')
  /-- dropped in both -/
  | dropped : Reordered K .dropped .dropped

/-- Two lists of groups are one but for the order of siblings and of rows, and for their keys. -/
inductive ReorderedAll (K : Value → Value → Prop) : List (Group α) → List (Group α) → Prop where
  /-- no groups -/
  | nil : ReorderedAll K [] []
  /-- the first group stands somewhere, with its count and its summary, among the others -/
  | cons {key key' : Value} {items items' : Subtree α} {count : Option Nat}
    {summary : Option (List Value)} {rest before after : List (Group α)}
    (same : K key key') (under : Reordered K items items')
    (others : ReorderedAll K rest (before ++ after)) :
    ReorderedAll K (.mk key items count summary :: rest)
      (before ++ .mk key' items' count summary :: after)

end

variable {K : Value → Value → Prop}

theorem leafRowsOf_append (gs gs' : List (Group α)) :
    leafRowsOf (gs ++ gs') = leafRowsOf gs ++ leafRowsOf gs' := by
  induction gs with
  | nil => rfl
  | cons g gs ih =>
    rw [List.cons_append, leafRowsOf_cons, leafRowsOf_cons, ih, List.append_assoc]

mutual

/-- A tree in another order has the same rows. -/
theorem Reordered.leafRows_perm : (t : Subtree α) → {t' : Subtree α} → t.Reordered K t' →
    (leafRows t').Perm (leafRows t)
  | .groups gs, _, .groups h => ReorderedAll.leafRowsOf_perm gs h
  | .rows _, _, .rows h => h
  | .dropped, _, .dropped => .nil

/-- So have groups in another order. -/
theorem ReorderedAll.leafRowsOf_perm : (gs : List (Group α)) → {gs' : List (Group α)} →
    ReorderedAll K gs gs' → (leafRowsOf gs').Perm (leafRowsOf gs)
  | [], _, .nil => .nil
  | .mk _ items _ _ :: rest, _, .cons _ under others => by
    have here := Reordered.leafRows_perm items under
    have there := ReorderedAll.leafRowsOf_perm rest others
    rw [leafRowsOf_append] at there
    rw [leafRowsOf_append, leafRowsOf, leafRowsOf]
    refine (List.perm_append_comm_assoc _ _ _).trans ?_
    exact here.append there

end

mutual

/-- Other summaries keep the order of trees. -/
theorem Reordered.resum (f : Option (List Value) → Option (List Value)) : (t : Subtree α) →
    {t' : Subtree α} → t.Reordered K t' → (t.resum f).Reordered K (t'.resum f)
  | .groups gs, _, .groups h => .groups (ReorderedAll.resumAll f gs h)
  | .rows _, _, .rows h => .rows h
  | .dropped, _, .dropped => .dropped

/-- Groups in another order stay so when their summaries are changed. -/
theorem ReorderedAll.resumAll (f : Option (List Value) → Option (List Value)) :
    (gs : List (Group α)) → {gs' : List (Group α)} → ReorderedAll K gs gs' →
    ReorderedAll K (Subtree.resumAll f gs) (Subtree.resumAll f gs')
  | [], _, .nil => .nil
  | .mk _ items _ _ :: rest, _, .cons same under others => by
    have there := ReorderedAll.resumAll f rest others
    rw [resumAll_eq_map f (_ ++ _), List.map_append, ← resumAll_eq_map, ← resumAll_eq_map] at there
    rw [resumAll_eq_map f (_ ++ _), List.map_append, List.map_cons, ← resumAll_eq_map,
      ← resumAll_eq_map]
    exact .cons same (Reordered.resum f items under) there

end

/-- A summary does not hang on the order of rows with a property. -/
def OrderFree (P : α → Prop) (f : List α → Option (List Value)) : Prop :=
  ∀ part part' : List α, (∀ row ∈ part, P row) → part'.Perm part → f part' = f part

mutual

/-- Summaries that do not hang on the order of rows keep the order of trees. -/
theorem Reordered.dress {P : α → Prop} {f : List α → Option (List Value)} (free : OrderFree P f) :
    (t : Subtree α) → {t' : Subtree α} → (∀ row ∈ leafRows t, P row) → t.Reordered K t' →
    (t.dress f).Reordered K (t'.dress f)
  | .groups gs, _, hP, .groups h => .groups (ReorderedAll.dressAll free gs hP h)
  | .rows _, _, _, .rows h => .rows h
  | .dropped, _, _, .dropped => .dropped

/-- They stay so when they are given summaries that do not hang on the order of rows. -/
theorem ReorderedAll.dressAll {P : α → Prop} {f : List α → Option (List Value)}
    (free : OrderFree P f) : (gs : List (Group α)) → {gs' : List (Group α)} →
    (∀ row ∈ leafRowsOf gs, P row) → ReorderedAll K gs gs' →
    ReorderedAll K (Subtree.dressAll f gs) (Subtree.dressAll f gs')
  | [], _, _, .nil => .nil
  | .mk _ items _ _ :: rest, _, hP, .cons same under others => by
    obtain ⟨hitems, hrest⟩ := List.forall_mem_append.1 hP
    have there := ReorderedAll.dressAll free rest hrest others
    rw [dressAll_eq_map f (_ ++ _), List.map_append, ← dressAll_eq_map, ← dressAll_eq_map] at there
    rw [dressAll_eq_map f (_ ++ _), List.map_append, List.map_cons, ← dressAll_eq_map,
      ← dressAll_eq_map, Subtree.dressAll,
      ← free _ _ hitems (Reordered.leafRows_perm items under)]
    exact .cons same (Reordered.dress free items hitems under) there

end

/-- Groups that agree one by one with groups in another order. -/
theorem ReorderedAll.of_forall₂ {gs hs gs' : List (Group α)}
    (each : List.Forall₂ (fun g h => K g.key h.key ∧ g.items.Reordered K h.items
      ∧ h.count = g.count ∧ h.summary = g.summary) gs hs) (perm : hs.Perm gs') :
    ReorderedAll K gs gs' := by
  induction each generalizing gs' with
  | nil =>
    obtain rfl := perm.nil_eq
    exact .nil
  | @cons g h gs hs first _ ih =>
    obtain ⟨before, after, rfl⟩ := List.append_of_mem (perm.mem_iff.1 List.mem_cons_self)
    obtain ⟨key, items, count, summary⟩ := g
    obtain ⟨key', items', count', summary'⟩ := h
    obtain ⟨same, under, rfl, rfl⟩ := first
    exact .cons same under (ih (List.Perm.cons_inv (perm.trans List.perm_middle)))

/-- There are as many groups in another order. -/
theorem ReorderedAll.length_eq : {gs gs' : List (Group α)} → ReorderedAll K gs gs' →
    gs'.length = gs.length
  | _, _, .nil => rfl
  | _, _, .cons _ _ others => by
    rw [List.length_append, List.length_cons, List.length_cons, ← others.length_eq,
      List.length_append]
    rfl

end Subtree

namespace Grouping

open Subtree (Reordered ReorderedAll)

variable {α : Type} {key : α → Nat → Value} {K : Value → Value → Prop} {rows rows' : List α}

/-- Rows with a key are the rows with the same key in another order of the rows. -/
theorem withKey_perm (key : α → Nat → Value) (level : Nat) {k l : Value} (same : sameKey k l = true)
    (perm : rows'.Perm rows) : (withKey key level l rows').Perm (withKey key level k rows) := by
  have classes : withKey key level l rows = withKey key level k rows := by
    apply List.filter_congr
    intro row _
    exact (Bucket.same_congr_left sameKey_equivalence same (key row level)).symm
  rw [← classes]
  exact perm.filter _

/-- Keys that are grouped together agree as `K` says, from a level on and as far down as levels
go. -/
def Agree (K : Value → Value → Prop) (key : α → Nat → Value) (below level : Nat) (rows : List α) :
    Prop :=
  ∀ row ∈ rows, ∀ row' ∈ rows, ∀ l, level ≤ l → l ≤ level + below →
    sameKey (key row l) (key row' l) = true → K (key row l) (key row' l)

/-- The first keys of rows agree with those of the rows in another order. -/
theorem exists_keysAt_perm {below level : Nat} (agree : Agree K key below level rows)
    (perm : rows'.Perm rows) :
    ∃ ls, List.Forall₂ (fun k l => K k l ∧ sameKey k l = true) (keysAt key level rows) ls
      ∧ ls.Perm (keysAt key level rows') := by
  obtain ⟨ls, hls, hperm⟩ := Bucket.exists_firsts_perm sameKey_equivalence
    (perm.symm.map fun row => key row level)
  have ofRow {k : Value} {rows : List α} (h : k ∈ keysAt key level rows) :
      ∃ row ∈ rows, key row level = k :=
    List.mem_map.1 (Bucket.mem_of_mem_firsts _ h)
  have here : ∀ k ∈ keysAt key level rows, ∃ row ∈ rows, key row level = k := fun _ => ofRow
  have there : ∀ l ∈ ls, ∃ row ∈ rows, key row level = l := by
    intro l hl
    obtain ⟨row, hrow, same⟩ := ofRow (hperm.mem_iff.1 hl)
    exact ⟨row, perm.mem_iff.1 hrow, same⟩
  have held := (List.forall₂_and_left _ _).2 ⟨here, hls⟩
  have both := (List.forall₂_and_left _ _).2 ⟨there, held.flip⟩
  refine ⟨ls, both.flip.imp fun k l h => ?_, hperm⟩
  obtain ⟨⟨row', hrow', rfl⟩, ⟨row, hrow, rfl⟩, same⟩ := h
  exact ⟨agree row hrow row' hrow' level (Nat.le_refl _) (Nat.le_add_right _ _) same, same⟩

/-- Groups of the first keys of rows are those of the rows in another order, if the groups of keys
that agree are. -/
theorem reorderedAll_keysAt {below level : Nat} (agree : Agree K key below level rows)
    (perm : rows'.Perm rows) {f g : Value → Group α}
    (groups : ∀ k l, K k l → sameKey k l = true → K (f k).key (g l).key
      ∧ (f k).items.Reordered K (g l).items ∧ (g l).count = (f k).count
      ∧ (g l).summary = (f k).summary) :
    ReorderedAll K ((keysAt key level rows).map f) ((keysAt key level rows').map g) := by
  obtain ⟨ls, each, hperm⟩ := exists_keysAt_perm agree perm
  refine .of_forall₂ ?_ (hperm.map _)
  rw [List.forall₂_map_left_iff, List.forall₂_map_right_iff]
  exact each.imp fun k l h => groups k l h.1 h.2

/-- Rows in another order make a tree that is one but for the order. -/
theorem reorderedAll_tree {below level : Nat} (agree : Agree K key below level rows)
    (perm : rows'.Perm rows) :
    ReorderedAll K (tree key below level rows) (tree key below level rows') := by
  induction below generalizing level rows rows' with
  | zero =>
    rw [tree, tree]
    refine reorderedAll_keysAt agree perm fun k l agrees same => ?_
    have part := withKey_perm key level same perm
    exact ⟨agrees, .rows part, congrArg some part.length_eq, rfl⟩
  | succ below ih =>
    rw [tree, tree]
    refine reorderedAll_keysAt agree perm fun k l agrees same => ?_
    have part := withKey_perm key level same perm
    have agree' : Agree K key below (level + 1) (withKey key level k rows) := by
      intro row hrow row' hrow' n low high
      exact agree row (mem_withKey.1 hrow).1 row' (mem_withKey.1 hrow').1 n (by omega) (by omega)
    have under := ih agree' part
    exact ⟨agrees, .groups under, congrArg some under.length_eq, rfl⟩

end Grouping

end DataGrid
