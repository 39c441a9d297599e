import DataGrid.Proofs.Grouping.Leaves
import DataGrid.Proofs.Store.Standing

/-!
# Siblings of sorted rows

Grouping does not sort. But if rows are sorted by the tuples of their keys, the rows below a path of
keys are sorted by the next key, whose first occurrences then stand in strict order
(`Grouping.pairwise_keysAt`).

`Subtree.Maps` says that a function on trees keeps the places in them and the keys that lead there,
as other summaries and the dropping of rows do; so what is known of the tree of rows holds of the
groups that are shown.
-/

namespace DataGrid

open Store (keyIn keyOf)

/-! ### Keys at a level -/

namespace Sorting

/-- Tuples in order that have the same keys above a level have keys in the order of the level. -/
theorem isLE_level {descs : List Bool} {as bs : List Value} {level : Nat} {desc : Bool}
    (ha : IsTuple descs.length as) (hb : IsTuple descs.length bs)
    (hdesc : descs[level]? = some desc) (same : ∀ l < level, keyIn as l = keyIn bs l)
    (le : (compareKeys descs as bs).isLE) :
    (if desc then ((keyIn as level).order (keyIn bs level)).swap
      else (keyIn as level).order (keyIn bs level)).isLE := by
  induction descs generalizing as bs level with
  | nil => cases hdesc
  | cons d descs ih =>
    obtain ⟨a, as, rfl, hexact, ha⟩ := isTuple_succ.1 ha
    obtain ⟨b, bs, rfl, -, hb⟩ := isTuple_succ.1 hb
    rw [compareKeys_cons] at le
    cases level with
    | zero =>
      cases hdesc
      exact (Ordering.isLE_then_iff_and.1 le).1
    | succ level =>
      -- the first keys are the same, and leave the others to decide
      have first : a = b := same 0 level.succ_pos
      rw [first, (level_orders d).refl (first ▸ hexact)] at le
      have below : ∀ l < level, keyIn as l = keyIn bs l :=
        fun l hl => same (l + 1) (Nat.succ_lt_succ hl)
      exact (ih ha hb hdesc below le :)

/-- Tuples that have the same key at every level are equal. -/
theorem eq_of_keyIn {levels : Nat} {as bs : List Value} (ha : as.length = levels)
    (hb : bs.length = levels) (same : ∀ level < levels, keyIn as level = keyIn bs level) :
    as = bs := by
  refine List.ext_getElem (ha.trans hb.symm) fun level hla hlb => ?_
  have key := same level (ha ▸ hla)
  rwa [keyIn, keyIn, List.getElem?_eq_getElem hla, List.getElem?_eq_getElem hlb] at key

/-- A tuple of exact values has one at every level, which may be the null behind its end. -/
theorem IsTuple.isExact_keyIn {levels : Nat} {t : List Value} (h : IsTuple levels t) (level : Nat) :
    (keyIn t level).isExact = true := by
  rw [keyIn]
  cases hk : t[level]? with
  | none => rfl
  | some v => exact h.2 v (List.mem_of_getElem? hk)

end Sorting

namespace Grouping

variable {tuple : Value → List Value} {levels : Nat} {rows : List Value} {path : List Value}

/-- Rows on one path have the same keys along it. -/
theorem keyIn_eq_of_onPath {a b : Value} (ha : Sorting.IsTuple levels (tuple a))
    (hb : Sorting.IsTuple levels (tuple b)) (hpa : onPath (keyOf tuple) path a = true)
    (hpb : onPath (keyOf tuple) path b = true) :
    ∀ level < path.length, keyIn (tuple a) level = keyIn (tuple b) level := by
  intro level hlevel
  have key : ∀ row, onPath (keyOf tuple) path row = true →
      sameKey path[level] (keyOf tuple row level) = true := by
    intro row hrow
    rw [onPath, List.all_eq_true] at hrow
    exact hrow (path[level], level) (List.mk_mem_zipIdx_iff_getElem?.2
      (List.getElem?_eq_getElem hlevel))
  have same := sameKey_equivalence.trans (sameKey_equivalence.symm (key a hpa)) (key b hpb)
  exact (sameKey_eq_true_iff (ha.isExact_keyIn level) (hb.isExact_keyIn level)).1 same

/-- The first keys at a level of rows that are sorted by their tuples and have the same keys above
it. -/
theorem pairwise_keysAt {descs : List Bool} {desc : Bool}
    (tuples : ∀ row ∈ rows, Sorting.IsTuple descs.length (tuple row))
    (sorted : rows.Pairwise fun a b => (Sorting.compareKeys descs (tuple a) (tuple b)).isLE)
    (on : ∀ row ∈ rows, onPath (keyOf tuple) path row = true)
    (hdesc : descs[path.length]? = some desc) :
    (keysAt (keyOf tuple) path.length rows).Pairwise fun k l =>
      k.order l = if desc then .gt else .lt := by
  have exact : ∀ k ∈ keysAt (keyOf tuple) path.length rows, k.isExact = true := by
    intro k hk
    obtain ⟨row, hrow, rfl⟩ := List.mem_map.1 (Bucket.mem_of_mem_firsts _ hk)
    exact (tuples row hrow).isExact_keyIn path.length
  have le : (keysAt (keyOf tuple) path.length rows).Pairwise fun k l =>
      (if desc then (k.order l).swap else k.order l).isLE := by
    refine List.Pairwise.sublist (Bucket.firsts_sublist _ _) (List.pairwise_map.2 ?_)
    refine sorted.imp_of_mem fun {a b} ha hb le => ?_
    exact Sorting.isLE_level (tuples a ha) (tuples b hb) hdesc
      (keyIn_eq_of_onPath (tuples a ha) (tuples b hb) (on a ha) (on b hb)) le
  refine (le.and (Bucket.pairwise_firsts sameKey _)).imp_of_mem fun {k l} hk hl h => ?_
  -- first keys are apart, and what is no greater and apart is less
  have apart : k ≠ l := by
    rintro rfl
    exact absurd h.2 (by simp [sameKey_equivalence.refl k])
  have less := (Sorting.level_orders desc).lt_of_ne (exact k hk) (exact l hl) h.1 apart
  cases desc with
  | false => exact less
  | true => exact Ordering.swap_eq_lt.1 less

end Grouping

/-! ### Nulls are smallest -/

namespace Value

/-- Nothing comes before null. -/
theorem order_null_ne_lt (v : Value) : v.order .null ≠ .lt := by
  cases v <;> simp [order, rank, compare?] <;> decide

theorem null_order_ne_gt (v : Value) : Value.null.order v ≠ .gt := by
  cases v <;> simp [order, rank, compare?] <;> decide

end Value

/-- Groups in strict order of their keys: a null key comes first, or last if the order descends. -/
theorem Group.null_at_end {α : Type} {gs : List (Group α)} {desc : Bool}
    (ordered : gs.Pairwise fun a b => a.key.order b.key = if desc then .gt else .lt) {g : Group α}
    (hg : g ∈ gs) (null : g.key = .null) :
    (if desc then gs.getLast? else gs.head?) = some g := by
  obtain ⟨before, after, rfl⟩ := List.append_of_mem hg
  obtain ⟨-, later, between⟩ := List.pairwise_append.1 ordered
  cases desc with
  | false =>
    cases before with
    | nil => rfl
    | cons b before =>
      have less := between b List.mem_cons_self g List.mem_cons_self
      rw [null] at less
      exact absurd less (Value.order_null_ne_lt b.key)
  | true =>
    cases after with
    | nil => exact List.getLast?_concat
    | cons a after =>
      have greater := (List.pairwise_cons.1 later).1 a List.mem_cons_self
      rw [null] at greater
      exact absurd greater (Value.null_order_ne_gt a.key)

/-! ### Functions that keep places -/

namespace Subtree

variable {α β : Type}

/-- A function on trees keeps the groups in them with their keys. -/
structure Maps (f : Subtree α → Subtree β) (F : Group α → Group β) : Prop where
  /-- groups one by one -/
  groups : ∀ gs, f (.groups gs) = .groups (gs.map F)
  /-- groups come of groups only -/
  exists_groups : ∀ {t gs'}, f t = .groups gs' → ∃ gs, t = .groups gs
  /-- with their keys -/
  key : ∀ g, (F g).key = g.key
  /-- and what stands under them -/
  items : ∀ g, (F g).items = f g.items

variable {f : Subtree α → Subtree β} {F : Group α → Group β}

/-- A map of trees maps what stands at a place. -/
theorem Maps.at (h : Maps f F) {t u : Subtree α} {path : List Value} (place : At t path u) :
    At (f t) path (f u) := by
  induction place with
  | here t => exact .here (f t)
  | @under gs g path t hg _ ih =>
    rw [h.groups, ← h.key g]
    refine .under (List.mem_map_of_mem hg) ?_
    rwa [h.items]

/-- Every place afterwards was one before. -/
theorem Maps.exists_at (h : Maps f F) {t : Subtree α} {u : Subtree β} {path : List Value}
    (place : At (f t) path u) : ∃ u', At t path u' ∧ u = f u' := by
  generalize ht : f t = t' at place
  induction place generalizing t with
  | here t' => exact ⟨t, .here t, ht.symm⟩
  | @under gs' g' path u hg' _ ih =>
    obtain ⟨gs, rfl⟩ := h.exists_groups ht
    rw [h.groups] at ht
    cases ht
    obtain ⟨g, hg, rfl⟩ := List.mem_map.1 hg'
    obtain ⟨u', place, rfl⟩ := ih (h.items g).symm
    rw [h.key]
    exact ⟨u', .under hg place, rfl⟩

/-- It leaves keys as they are. -/
theorem Maps.map_key (h : Maps f F) {gs : List (Group α)} {gs' : List (Group β)}
    (hgs : f (.groups gs) = .groups gs') : gs'.map Group.key = gs.map Group.key := by
  rw [h.groups] at hgs
  cases hgs
  rw [List.map_map]
  exact List.map_congr_left fun g _ => h.key g

/-- Changing the summaries maps a tree by its groups. -/
theorem maps_resum (f : Option (List Value) → Option (List Value)) :
    Maps (resum f : Subtree α → Subtree α) (Group.resum f) where
  groups gs := congrArg Subtree.groups (resumAll_eq_map f gs)
  exists_groups {t gs'} h := by
    cases t with
    | groups gs => exact ⟨gs, rfl⟩
    | rows _ | dropped => cases h
  key _ := rfl
  items _ := rfl

theorem maps_dress (f : List α → Option (List Value)) :
    Maps (dress f : Subtree α → Subtree α) (Group.dress f) where
  groups gs := congrArg Subtree.groups (dressAll_eq_map f gs)
  exists_groups {t gs'} h := by
    cases t with
    | groups gs => exact ⟨gs, rfl⟩
    | rows _ | dropped => cases h
  key _ := rfl
  items _ := rfl

theorem maps_dropRows : Maps (dropRows : Subtree α → Subtree α) Group.dropRows where
  groups gs := congrArg Subtree.groups (dropRowsOf_eq_map gs)
  exists_groups {t gs'} h := by
    cases t with
    | groups gs => exact ⟨gs, rfl⟩
    | rows _ | dropped => cases h
  key _ := rfl
  items _ := rfl

mutual

/-- A leaf stands at the end of its path, where there are no groups. -/
theorem exists_at_of_mem_leaves : (t : Subtree α) → {path : List Value} → {count : Option Nat} →
    {leaf : Leaf} → leaf ∈ leaves path count t →
    ∃ rest u, leaf.path = path ++ rest ∧ At t rest u ∧ ∀ gs, u ≠ groups gs
  | groups gs, _, _, _, h => exists_at_of_mem_leavesUnder gs h
  | rows rs, path, _, _, h => by
    obtain rfl := List.mem_singleton.1 h
    exact ⟨[], _, (List.append_nil path).symm, .here _, fun _ h => nomatch h⟩
  | dropped, path, _, _, h => by
    obtain rfl := List.mem_singleton.1 h
    exact ⟨[], _, (List.append_nil path).symm, .here _, fun _ h => nomatch h⟩

/-- The path of an innermost group leads to what is no group any more. -/
theorem exists_at_of_mem_leavesUnder : (gs : List (Group α)) → {path : List Value} →
    {leaf : Leaf} → leaf ∈ leavesUnder path gs →
    ∃ rest u, leaf.path = path ++ rest ∧ At (groups gs) rest u ∧ ∀ gs', u ≠ groups gs'
  | [], _, _, h => nomatch h
  | .mk key items count summary :: others, path, leaf, h => by
    rw [leavesUnder, List.mem_append] at h
    rcases h with inside | behind
    · obtain ⟨rest, u, deep, place, inner⟩ := exists_at_of_mem_leaves items inside
      refine ⟨key :: rest, u, ?_, .under List.mem_cons_self place, inner⟩
      rw [deep, List.append_assoc, List.singleton_append]
    · obtain ⟨rest, u, deep, place, inner⟩ := exists_at_of_mem_leavesUnder others behind
      refine ⟨rest, u, deep, ?_, inner⟩
      cases place with
      | here => exact absurd rfl (inner others)
      | under hg place => exact .under (List.mem_cons_of_mem _ hg) place

end

end Subtree

/-! ### The tree of rows, but for summaries -/

namespace Grouping

open Subtree (At resumAll)

variable {α : Type} {key : α → Nat → Value} {gs gs' : List (Group α)} {below : Nat} {rows : List α}
variable {path : List Value}
variable (bare : resumAll (fun _ => none) gs = resumAll (fun _ => none) (tree key below 0 rows))
include bare

/-- Places in the tree with summaries are places in the tree. -/
theorem place_of_bare {u : Subtree α} (place : At (.groups gs) path u) :
    ∃ u', At (.groups (tree key below 0 rows)) path u' ∧ u.bare = u'.bare := by
  have whole : (Subtree.groups gs).bare = (Subtree.groups (tree key below 0 rows)).bare :=
    congrArg Subtree.groups bare
  have place : At (Subtree.groups gs).bare path u.bare := (Subtree.maps_resum _).at place
  rw [whole] at place
  exact (Subtree.maps_resum _).exists_at place

/-- Siblings have the first keys of the rows on their path. -/
theorem keys_of_bare (place : At (.groups gs) path (.groups gs')) : path.length ≤ below
    ∧ gs'.map Group.key = keysAt key path.length (rows.filter (onPath key path)) := by
  obtain ⟨u, place, same⟩ := place_of_bare bare place
  obtain ⟨siblings, rfl⟩ := (Subtree.maps_resum fun _ => none).exists_groups same.symm
  rcases place_tree place with ⟨high, h⟩ | ⟨-, h⟩
  · cases h
    refine ⟨high, ?_⟩
    have ours := (Subtree.maps_resum fun _ => none).map_key same
    have theirs := (Subtree.maps_resum fun _ => none).map_key (rfl : (Subtree.groups
      (tree key (below - path.length) path.length (rows.filter (onPath key path)))).bare = _)
    exact ours.symm.trans (theirs.trans (map_key_tree _ _ _))
  · cases h

/-- Under innermost groups stand the rows on their path. -/
theorem rows_of_bare {u : Subtree α} (place : At (.groups gs) path u)
    (inner : ∀ siblings, u ≠ .groups siblings) : u = .rows (rows.filter (onPath key path)) := by
  obtain ⟨u', place, same⟩ := place_of_bare bare place
  rcases place_tree place with ⟨-, rfl⟩ | ⟨-, rfl⟩
  · obtain ⟨siblings, h⟩ := (Subtree.maps_resum fun _ => none).exists_groups same
    exact absurd h (inner siblings)
  · cases u with
    | groups siblings => exact absurd rfl (inner siblings)
    | rows rs => exact same
    | dropped => cases same

end Grouping

end DataGrid
