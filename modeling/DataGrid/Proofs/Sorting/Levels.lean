import DataGrid.Proofs.Sorting.Stable
import DataGrid.Proofs.Store
import DataGrid.Proofs.Value.Blurring

/-!
# Sorting by several levels

Keys have a value for each level. `Sorting.Before` is their lexicographic order, in which a level
that descends is reversed, and `Sorting.Level` says that no level tells two keys apart; neither
mentions the comparison that a `Sorter` uses. If on every level the order is transitive on the
values that occur there, a sorter leaves records `Sorting.InOrder` (`Sorter.sort_inOrder`):

* they are the records again, each of them once;
* none stands in front of one whose key comes before its own;
* records whose keys are level stand as they did, whichever levels descend;
* on a level that descends, nulls stand behind all else that is level on the levels before.

Nothing else is asked of the values: a level may mix kinds, and it may sort by doubles.
-/

namespace DataGrid

open Std

namespace Value

theorem order_null_of_ne_null {v : Value} (h : v ≠ .null) : v.order .null = .gt := by
  cases v <;> first | exact absurd rfl h | rfl

end Value

namespace Sorting

/-- Tuples of keys that are level on every level. -/
def Level (a b : List Value) : Prop := List.Forall₂ (fun v w => v.order w = .eq) a b

/-- A tuple of keys comes before another lexicographically; a level that descends is reversed. -/
inductive Before : List Bool → List Value → List Value → Prop where
  /-- it has the lesser key -/
  | ascending {levels : List Bool} {a b : Value} {as bs : List Value} (h : a.order b = .lt) :
    Before (false :: levels) (a :: as) (b :: bs)
  /-- it has the greater key on a level that descends -/
  | descending {levels : List Bool} {a b : Value} {as bs : List Value} (h : a.order b = .gt) :
    Before (true :: levels) (a :: as) (b :: bs)
  /-- the keys are level, and the rest comes before the other rest -/
  | later {desc : Bool} {levels : List Bool} {a b : Value} {as bs : List Value}
    (h : a.order b = .eq) (rest : Before levels as bs) :
    Before (desc :: levels) (a :: as) (b :: bs)

variable {levels : List Bool} {a b : List Value}

theorem before_of_compareKeys (ha : a.length = levels.length) (hb : b.length = levels.length)
    (h : compareKeys levels a b = .lt) : Before levels a b := by
  induction levels generalizing a b with
  | nil =>
    rw [compareKeys] at h
    · cases h
    · simp
  | cons desc levels ih =>
    rcases a with _ | ⟨a, as⟩
    · cases ha
    rcases b with _ | ⟨b, bs⟩
    · cases hb
    rw [compareKeys_cons, Ordering.then_eq_lt] at h
    rcases h with first | ⟨level, rest⟩
    · cases desc with
      | false => exact .ascending first
      | true => exact .descending (by simpa using first)
    · refine .later ?_ (ih (Nat.succ.inj ha) (Nat.succ.inj hb) rest)
      cases desc with
      | false => exact level
      | true => simpa using level

theorem level_of_compareKeys (ha : a.length = levels.length) (hb : b.length = levels.length)
    (h : compareKeys levels a b = .eq) : Level a b := by
  induction levels generalizing a b with
  | nil =>
    rw [List.eq_nil_of_length_eq_zero ha, List.eq_nil_of_length_eq_zero hb]
    exact .nil
  | cons desc levels ih =>
    rcases a with _ | ⟨a, as⟩
    · cases ha
    rcases b with _ | ⟨b, bs⟩
    · cases hb
    rw [compareKeys_cons, Ordering.then_eq_eq] at h
    refine .cons ?_ (ih (Nat.succ.inj ha) (Nat.succ.inj hb) h.2)
    cases desc with
    | false => exact h.1
    | true => simpa using h.1

theorem compareKeys_of_before (h : Before levels a b) : compareKeys levels a b = .lt := by
  induction h with
  | ascending h => rw [compareKeys_cons, h]; rfl
  | descending h => rw [compareKeys_cons, h]; rfl
  | later h _ ih => rw [compareKeys_cons, h, ih]; split <;> rfl

theorem compareKeys_of_level (h : Level a b) : compareKeys levels a b = .eq := by
  induction h generalizing levels with
  | nil => cases levels <;> rfl
  | cons eq _ ih =>
    cases levels with
    | nil => rfl
    | cons desc levels => rw [compareKeys_cons, eq, ih]; split <;> rfl

/-- On a level that descends, anything else comes before a null. -/
theorem before_of_null {l : Nat} (descends : levels[l]? = some true)
    (level : Level (a.take l) (b.take l)) {v : Value} (ha : a[l]? = some .null)
    (hb : b[l]? = some v) (hv : v ≠ .null) : Before levels b a := by
  induction l generalizing levels a b with
  | zero =>
    obtain ⟨levels, rfl⟩ := List.head?_eq_some_iff.1 (List.head?_eq_getElem? ▸ descends)
    obtain ⟨as, rfl⟩ := List.head?_eq_some_iff.1 (List.head?_eq_getElem? ▸ ha)
    obtain ⟨bs, rfl⟩ := List.head?_eq_some_iff.1 (List.head?_eq_getElem? ▸ hb)
    exact .descending (Value.order_null_of_ne_null hv)
  | succ l ih =>
    rcases levels with _ | ⟨desc, levels⟩
    · cases descends
    rcases a with _ | ⟨a, as⟩
    · cases ha
    rcases b with _ | ⟨b, bs⟩
    · cases hb
    obtain ⟨eq, level⟩ := List.forall₂_cons.1 level
    exact .later (by rw [Value.order_swap, eq]; rfl) (ih descends level ha hb)

/-! ### Records with their places -/

/-- Records with the places at which they stood, in the order of their keys. -/
structure InOrder (sort : List Sorting) (key : Value → List Value) (records : List Value)
    (placed : List (Value × Nat)) : Prop where
  /-- each record is there once, with its place -/
  perm : placed.Perm records.zipIdx
  /-- none stands in front of one whose key comes before its own -/
  ordered : placed.Pairwise fun a b => ¬ Before (sort.map desc) (key b.1) (key a.1)
  /-- those whose keys are level stand as they did -/
  stable : placed.Pairwise fun a b => Level (key a.1) (key b.1) → a.2 < b.2
  /-- on a level that descends, only nulls stand behind a null that is level with them before -/
  nullsLast : ∀ (l : Nat) (s : Sorting), sort[l]? = some s → s.desc = true →
    placed.Pairwise fun a b => Level ((key a.1).take l) ((key b.1).take l) →
      (key a.1)[l]? = some .null → (key b.1)[l]? = some .null

/-- A value that occurs in the keys of records on a level. -/
def Occurs (key : Value → List Value) (records : List Value) (l : Nat) (v : Value) : Prop :=
  ∃ record ∈ records, (key record)[l]? = some v

/-- Numbered places are in order. -/
theorem pairwise_zipIdx (records : List Value) (k : Nat) :
    (records.zipIdx k).Pairwise fun a b => a.2 < b.2 := by
  induction records generalizing k with
  | nil => exact .nil
  | cons record rest ih =>
    rw [List.zipIdx_cons]
    exact List.pairwise_cons.2 ⟨fun b hb => List.le_snd_of_mem_zipIdx hb, ih (k + 1)⟩

/-- Records with their places are put in order by comparing keys, if the values of each level are in
a preorder. -/
theorem inOrder_arrange {sort : List Sorting} {key : Value → List Value} {records : List Value}
    (length : ∀ record ∈ records, (key record).length = sort.length)
    (places : ∀ l, PlacesOn (Occurs key records l) Value.order) :
    InOrder sort key records (arrange (fun a b => compareKeys (sort.map desc) (key a.1) (key b.1))
      records.zipIdx) := by
  have inside : ∀ p ∈ records.zipIdx, p.1 ∈ records := fun p hp => List.fst_mem_of_mem_zipIdx hp
  have occur : ∀ p ∈ records.zipIdx,
      Levelwise (Occurs key records) (sort.map desc).length (key p.1) := fun p hp =>
    ⟨by rw [List.length_map, length p.1 (inside p hp)], fun l v hv => ⟨p.1, inside p hp, hv⟩⟩
  have orders := compareKeys_places_levelwise places (sort.map desc)
  have perm := arrange_perm (fun a b : Value × Nat =>
    compareKeys (sort.map desc) (key a.1) (key b.1)) records.zipIdx
  have ahead := pairwise_arrange_ahead orders occur (pairwise_zipIdx records 0)
  generalize arrange (fun a b : Value × Nat =>
    compareKeys (sort.map desc) (key a.1) (key b.1)) records.zipIdx = placed at perm ahead ⊢
  have ordered : placed.Pairwise fun a b => ¬ Before (sort.map desc) (key b.1) (key a.1) := by
    refine ahead.imp_of_mem fun {a b} ha hb h wrong => ?_
    have le := h.isLE
    rw [orders.swap (occur a (perm.mem_iff.1 ha)) (occur b (perm.mem_iff.1 hb)),
      compareKeys_of_before wrong] at le
    cases le
  refine ⟨perm, ordered, ahead.imp fun {a b} h level => ?_, fun l s hs descends => ?_⟩
  · rcases h with lt | ⟨-, before⟩
    · have eq : compareKeys (sort.map desc) (key a.1) (key b.1) = .eq := compareKeys_of_level level
      cases lt.symm.trans eq
    · exact before
  · refine ordered.imp_of_mem fun {a b} ha hb right level null => ?_
    have bound : l < (key b.1).length := by
      rw [length b.1 (inside b (perm.mem_iff.1 hb))]
      exact (List.getElem?_eq_some_iff.1 hs).1
    have turned : (sort.map desc)[l]? = some true := by
      rw [List.getElem?_map, hs, Option.map_some, descends]
    rw [List.getElem?_eq_getElem bound]
    by_contra other
    exact right (before_of_null turned level null (List.getElem?_eq_getElem bound)
      fun eq => other (congrArg some eq))

end Sorting

namespace Sorter

open Resolver (Serves fresh serves_fresh)
open Sorting (InOrder Occurs arrange)

variable {shape : Shape} {guardNulls : Bool} {sort : List Sorting} {s : Sorter}

/-- Records that are sorted by levels whose values are in a preorder come out in the order of their
keys, and those whose keys are level as they stood. -/
theorem sort_inOrder {r r' : Resolver} (known : Serves shape guardNulls r)
    (made : (make sort).run.run r = (.ok s, r')) {records : List Value} {key : Value → List Value}
    (reads : ∀ record ∈ records, ReadsKey shape guardNulls sort record (key record))
    (transitive : ∀ l a b c, Occurs key records l a → Occurs key records l b →
      Occurs key records l c → a.order b ≠ .gt → b.order c ≠ .gt → a.order c ≠ .gt) :
    ∃ placed, s.sort records = ⟨placed.map Prod.fst, none⟩ ∧ InOrder sort key records placed := by
  have resolves : resolved shape guardNulls sort = .ok s := by
    rw [← (computes_make sort r known).1, made]
  have places : ∀ l, PlacesOn (Occurs key records l) Value.order := fun l =>
    ⟨fun _ _ => Value.order_swap _ _, fun ha hb hc hab hbc => Ordering.isLE_iff_ne_gt.2 <|
      transitive l _ _ _ ha hb hc (Ordering.isLE_iff_ne_gt.1 hab) (Ordering.isLE_iff_ne_gt.1 hbc)⟩
  refine ⟨_, ?_, Sorting.inOrder_arrange (fun record hr => (reads record hr).length_eq.symm) places⟩
  rw [sort_eq fun record hr => keyOf_of_resolved resolves (reads record hr),
    ← Sorting.arrange_map (fun a b => Sorting.compareKeys (sort.map Sorting.desc) (key a) (key b)),
    List.zipIdx_map_fst]
  simp only [compare, desc_of_resolved resolves]

/-- Integers and doubles that are level stay as they stood, and a null comes last. -/
theorem sort_inOrder_orders :
    let shape := Shape.mk "Order" [.mk "x" .dynamic true, .mk "team" .string false]
    let order (x : Value) (team : String) := Value.object [("team", .string team), ("x", x)]
    let one : Value := .float ⟨0x3FF0000000000000⟩
    let records := [order (.int 1) "b", order one "a", order .null "a", order (.int 1) "a",
      order (.string "u") "b", order one "b"]
    let sort := [(Sorting.on "x").descending, .on "team"]
    let key (record : Value) := ["x", "team"].map fun name => match record with
      | .object members => Step.memberOf members name
      | _ => .null
    ∃ s r' placed, (make sort).run.run (fresh shape true) = (.ok s, r')
      ∧ s.sort records = ⟨placed.map Prod.fst, none⟩
      ∧ placed.map Prod.fst = [order (.string "u") "b", order one "a", order (.int 1) "a",
        order (.int 1) "b", order one "b", order .null "a"]
      ∧ InOrder sort key records placed := by
  intro shape order one records sort key
  have made : (make sort).run.run (fresh shape true)
      = (.ok ⟨[(⟨"x", [.member "x" .dynamic true], .dynamic, true, true⟩, true),
        (⟨"team", [.member "team" .string false], .string, false, true⟩, false)]⟩, _) := rfl
  have reads : ∀ record ∈ records, ReadsKey shape true sort record (key record) := by
    simp only [records, List.forall_mem_cons]
    refine ⟨?_, ?_, ?_, ?_, ?_, ?_, fun _ h => nomatch h⟩
    all_goals exact .cons ⟨_, rfl, rfl⟩ (.cons ⟨_, rfl, rfl⟩ .nil)
  have distinct : ∀ record ∈ records, ∀ v ∈ key record, v.Distinct := by
    simp only [records, List.forall_mem_cons]
    refine ⟨?_, ?_, ?_, ?_, ?_, ?_, fun _ h => nomatch h⟩
    all_goals
      refine List.forall_mem_cons.2 ⟨?_, List.forall_mem_cons.2 ⟨trivial, fun _ h => nomatch h⟩⟩
      first
        | trivial
        | exact (rfl : Binary64.isNaN ⟨0x3FF0000000000000⟩ = false)
        | exact (by decide : (1 : Int64).toInt.natAbs ≤ 2 * Binary64.fractionLimit)
  have occurs {l v} (h : Occurs key records l v) : v.Distinct := by
    obtain ⟨record, hr, hv⟩ := h
    exact distinct record hr v (List.mem_of_getElem? hv)
  obtain ⟨placed, sorted, inOrder⟩ := sort_inOrder serves_fresh made reads
    fun l a b c ha hb hc hab hbc => Ordering.isLE_iff_ne_gt.1 <|
      Value.order_places_distinct.trans (occurs ha) (occurs hb) (occurs hc)
        (Ordering.isLE_iff_ne_gt.2 hab) (Ordering.isLE_iff_ne_gt.2 hbc)
  exact ⟨_, _, placed, made, sorted, congrArg Outcome.records sorted.symm, inOrder⟩

end Sorter

end DataGrid
