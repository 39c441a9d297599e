import DataGrid.Proofs.Value.Sameness
import Mathlib.Data.List.Forall2

/-!
# Orders of exact values

`Value.order` is a linear order of the exact values, and `Sorting.compareKeys` one of the tuples of
exact values that have a value for every level. Both are told as orders of a property, since neither
is an order of all values or of all lists.

Of the values that are no doubles, `Value.order` leaves lists level with one another, and records
too. It still places them as a linear preorder (`Value.order_places`), and `Sorting.compareKeys`
places their tuples (`Sorting.compareKeys_places`).
-/

namespace DataGrid

open Std

/-- A three-way comparison is a linear preorder of the elements with a property. -/
structure PlacesOn {α : Type} (P : α → Prop) (cmp : α → α → Ordering) : Prop where
  /-- turning the comparison turns its outcome -/
  swap : ∀ {a b}, P a → P b → cmp a b = (cmp b a).swap
  /-- what is no greater than something no greater is no greater -/
  trans : ∀ {a b c}, P a → P b → P c → (cmp a b).isLE → (cmp b c).isLE → (cmp a c).isLE

namespace PlacesOn

variable {α : Type} {P Q : α → Prop} {cmp : α → α → Ordering}

/-- A preorder of more is one of fewer. -/
theorem imp (h : PlacesOn Q cmp) (hPQ : ∀ a, P a → Q a) : PlacesOn P cmp where
  swap ha hb := h.swap (hPQ _ ha) (hPQ _ hb)
  trans ha hb hc := h.trans (hPQ _ ha) (hPQ _ hb) (hPQ _ hc)

/-- Of two elements one is no greater than the other. -/
theorem total (h : PlacesOn P cmp) {a b : α} (ha : P a) (hb : P b) (hab : cmp a b ≠ .lt) :
    (cmp b a).isLE := by
  rw [h.swap hb ha]
  cases hcmp : cmp a b <;> simp [hcmp] at hab ⊢

/-- What comes before something no greater comes first. -/
theorem lt_of_lt_of_isLE (h : PlacesOn P cmp) {a b c : α} (ha : P a) (hb : P b) (hc : P c)
    (hab : cmp a b = .lt) (hbc : (cmp b c).isLE) : cmp a c = .lt := by
  by_contra hac
  have hba := h.trans hb hc ha hbc (h.total ha hc hac)
  rw [h.swap hb ha, hab] at hba
  cases hba

/-- What is no greater than something that comes before a third comes before that. -/
theorem lt_of_isLE_of_lt (h : PlacesOn P cmp) {a b c : α} (ha : P a) (hb : P b) (hc : P c)
    (hab : (cmp a b).isLE) (hbc : cmp b c = .lt) : cmp a c = .lt := by
  by_contra hac
  have hcb := h.trans hc ha hb (h.total ha hc hac) hab
  rw [h.swap hc hb, hbc] at hcb
  cases hcb

/-- A preorder turned around is a preorder. -/
theorem turned (h : PlacesOn P cmp) : PlacesOn P fun a b => (cmp a b).swap where
  swap ha hb := by rw [h.swap ha hb]
  trans {a b c} ha hb hc hab hbc := by
    rw [← h.swap hb ha] at hab
    rw [← h.swap hc hb] at hbc
    rw [← h.swap hc ha]
    exact h.trans hc hb ha hbc hab

end PlacesOn

/-- A three-way comparison is a linear order of the elements with a property. -/
structure OrdersOn {α : Type} (P : α → Prop) (cmp : α → α → Ordering) : Prop where
  /-- turning the comparison turns its outcome -/
  swap : ∀ {a b}, P a → P b → cmp a b = (cmp b a).swap
  /-- what is no greater than something no greater is no greater -/
  trans : ∀ {a b c}, P a → P b → P c → (cmp a b).isLE → (cmp b c).isLE → (cmp a c).isLE
  /-- only equal elements come out level -/
  eq_of : ∀ {a b}, P a → P b → cmp a b = .eq → a = b

namespace OrdersOn

variable {α : Type} {P : α → Prop} {cmp : α → α → Ordering}

theorem places (h : OrdersOn P cmp) : PlacesOn P cmp := ⟨h.swap, h.trans⟩

/-- A preorder that leaves only equal elements level is an order. -/
theorem of_places (h : PlacesOn P cmp) (eq_of : ∀ {a b}, P a → P b → cmp a b = .eq → a = b) :
    OrdersOn P cmp := ⟨h.swap, h.trans, eq_of⟩

theorem refl (h : OrdersOn P cmp) {a : α} (ha : P a) : cmp a a = .eq := by
  have turned := h.swap ha ha
  cases hcmp : cmp a a <;> rw [hcmp] at turned <;> first | rfl | cases turned

/-- Elements are level exactly if they are equal. -/
theorem eq_iff (h : OrdersOn P cmp) {a b : α} (ha : P a) (hb : P b) : cmp a b = .eq ↔ a = b :=
  ⟨h.eq_of ha hb, fun hab => hab ▸ h.refl ha⟩

/-- Elements that are no greater than each other are equal. -/
theorem antisymm (h : OrdersOn P cmp) {a b : α} (ha : P a) (hb : P b) (hab : (cmp a b).isLE)
    (hba : (cmp b a).isLE) : a = b := by
  rw [h.swap hb ha] at hba
  refine h.eq_of ha hb ?_
  cases hcmp : cmp a b <;> simp [hcmp] at hab hba ⊢

/-- What is no greater and not equal comes before. -/
theorem lt_of_ne (h : OrdersOn P cmp) {a b : α} (ha : P a) (hb : P b) (hab : (cmp a b).isLE)
    (hne : a ≠ b) : cmp a b = .lt := by
  cases hcmp : cmp a b with
  | lt => rfl
  | eq => exact absurd (h.eq_of ha hb hcmp) hne
  | gt => rw [hcmp] at hab; cases hab

theorem lt_trans (h : OrdersOn P cmp) {a b c : α} (ha : P a) (hb : P b) (hc : P c)
    (hab : cmp a b = .lt) (hbc : cmp b c = .lt) : cmp a c = .lt :=
  h.places.lt_of_lt_of_isLE ha hb hc hab (by rw [hbc]; rfl)

/-- An order turned around is an order. -/
theorem turned (h : OrdersOn P cmp) : OrdersOn P fun a b => (cmp a b).swap :=
  .of_places h.places.turned fun {a b} ha hb hab => by
    refine h.eq_of ha hb ?_
    cases hcmp : cmp a b <;> simp [hcmp] at hab ⊢

/-- An order of what determines the elements orders them. -/
theorem on {β : Type} [Ord β] [TransOrd β] [LawfulEqOrd β] {f : α → β}
    (hf : ∀ a b, f a = f b → a = b) : OrdersOn (fun _ => True) fun a b => compare (f a) (f b) where
  swap _ _ := OrientedOrd.eq_swap
  trans _ _ _ := TransOrd.isLE_trans
  eq_of _ _ h := hf _ _ (LawfulEqOrd.eq_of_compare h)

end OrdersOn

/-! ### Moments, spans and identifiers -/

instance : TransCmp DateTime.order :=
  inferInstanceAs <| TransCmp <| compareLex (compareOn fun d : DateTime => d.fields.year) <|
    compareLex (compareOn fun d => d.fields.month) <|
    compareLex (compareOn fun d => d.fields.day) <|
    compareLex (compareOn fun d => d.fields.hour) <|
    compareLex (compareOn fun d => d.fields.minute) <|
    compareLex (compareOn fun d => d.fields.second) (compareOn fun d => d.fields.nano)

instance : LawfulEqCmp DateTime.order where
  eq_of_compare {a b} h := by
    obtain ⟨⟨y, mo, d, h', mi, s, n⟩, _⟩ := a
    obtain ⟨⟨y', mo', d', h'', mi', s', n'⟩, _⟩ := b
    simp only [DateTime.order, Ordering.then_eq_eq, LawfulEqCmp.compare_eq_iff_eq] at h
    obtain ⟨rfl, rfl, rfl, rfl, rfl, rfl, rfl⟩ := h
    rfl

/-- Spans are ordered by their nanoseconds. -/
theorem Span.orders : OrdersOn (fun _ => True) Span.order :=
  .on fun a b h => by cases a; cases b; cases h; rfl

/-- Identifiers are ordered as numbers. -/
theorem Uuid.orders : OrdersOn (fun _ => True) Uuid.order :=
  .on fun _ _ h => congrArg Uuid.mk (BitVec.eq_of_toNat_eq h)

/-! ### Values -/

namespace Value

/-- Two exact values of one kind. -/
inductive Alike : Value → Value → Prop where
  /-- nulls -/
  | null : Alike null null
  /-- truth values -/
  | bool (a b : Bool) : Alike (bool a) (bool b)
  /-- integers -/
  | int (a b : Int64) : Alike (int a) (int b)
  /-- texts -/
  | string (a b : String) : Alike (string a) (string b)
  /-- moments -/
  | dateTime (a b : DateTime) : Alike (dateTime a) (dateTime b)
  /-- spans -/
  | span (a b : Span) : Alike (span a) (span b)
  /-- identifiers -/
  | uuid (a b : Uuid) : Alike (uuid a) (uuid b)

/-- Values of one rank are of one kind if they are no doubles, lists or records. -/
theorem alike_of_rank_lt {a b : Value} (ha : a.isDouble = false) (hb : b.isDouble = false)
    (simple : a.rank < 7) (h : a.rank = b.rank) : Alike a b := by
  cases a <;> cases b <;> first
    | constructor
    | simp [isDouble, rank] at ha hb h simple

/-- Exact values stand below lists and records. -/
theorem rank_lt_of_isExact {a : Value} (h : a.isExact = true) : a.rank < 7 := by
  cases a <;> simp [isExact, rank] at h ⊢

/-- Exact values of one rank are of one kind. -/
theorem alike_of_rank {a b : Value} (ha : a.isExact = true) (hb : b.isExact = true)
    (h : a.rank = b.rank) : Alike a b :=
  alike_of_rank_lt (isDouble_of_isExact ha) (isDouble_of_isExact hb) (rank_lt_of_isExact ha) h

/-- Lists are level with one another, and so are records. -/
theorem order_of_seven_le_rank {a b : Value} (structured : 7 ≤ a.rank) (h : a.rank = b.rank) :
    a.order b = .eq := by
  cases a <;> cases b <;> first
    | rfl
    | simp [rank] at structured h

/-- Values of different ranks are ordered by these. -/
theorem order_of_rank_ne {a b : Value} (h : a.rank ≠ b.rank) :
    a.order b = compare a.rank b.rank := if_neg h

/-- A value of a lesser rank comes first. -/
theorem isLE_order_iff {a b : Value} :
    (a.order b).isLE ↔ a.rank < b.rank ∨ a.rank = b.rank ∧ (a.order b).isLE := by
  by_cases h : a.rank = b.rank
  · simp [h]
  · rw [order_of_rank_ne h, Nat.isLE_compare]
    omega

/-- Turning the order of two values of one kind turns its outcome. -/
theorem Alike.order_swap {a b : Value} (h : Alike a b) : a.order b = (b.order a).swap := by
  cases h with
  | null => rfl
  | bool a b => exact OrientedOrd.eq_swap (α := Nat)
  | int a b => exact OrientedOrd.eq_swap (α := Int)
  | string a b => exact OrientedOrd.eq_swap (α := String)
  | dateTime a b => exact (OrientedCmp.eq_swap : DateTime.order a b = (DateTime.order b a).swap)
  | span a b => exact Span.orders.swap trivial trivial
  | uuid a b => exact Uuid.orders.swap trivial trivial

/-- Exact values of one kind are level only if they are equal. -/
theorem Alike.eq_of_order {a b : Value} (h : Alike a b) (hab : a.order b = .eq) : a = b := by
  cases h with
  | null => rfl
  | bool a b => cases a <;> cases b <;> first | rfl | cases hab
  | int a b => rw [Int64.toInt_inj.1 (LawfulEqOrd.eq_of_compare (α := Int) hab)]
  | string a b => rw [LawfulEqOrd.eq_of_compare (α := String) hab]
  | dateTime a b => rw [LawfulEqCmp.eq_of_compare (show DateTime.order a b = .eq from hab)]
  | span a b => rw [Span.orders.eq_of trivial trivial hab]
  | uuid a b => rw [Uuid.orders.eq_of trivial trivial hab]

/-- Among values of one kind, what is no greater than something no greater is no greater. -/
theorem Alike.order_trans {a b c : Value} (h : Alike a b) (h' : Alike b c)
    (hab : (a.order b).isLE) (hbc : (b.order c).isLE) : (a.order c).isLE := by
  cases h <;> cases h'
  case null => rfl
  case bool a b c => exact TransOrd.isLE_trans (α := Nat) hab hbc
  case int a b c => exact TransOrd.isLE_trans (α := Int) hab hbc
  case string a b c => exact TransOrd.isLE_trans (α := String) hab hbc
  case dateTime a b c =>
    show (DateTime.order a c).isLE
    exact TransCmp.isLE_trans (show (DateTime.order a b).isLE from hab) hbc
  case span a b c => exact Span.orders.trans trivial trivial trivial hab hbc
  case uuid a b c => exact Uuid.orders.trans trivial trivial trivial hab hbc

/-- The order of all values is a linear preorder on those that are no doubles. -/
theorem order_places : PlacesOn (fun v : Value => v.isDouble = false) order where
  swap {a b} ha hb := by
    by_cases h : a.rank = b.rank
    · rcases Nat.lt_or_ge a.rank 7 with simple | structured
      · exact (alike_of_rank_lt ha hb simple h).order_swap
      · rw [order_of_seven_le_rank structured h, order_of_seven_le_rank (h ▸ structured) h.symm]
        rfl
    · rw [order_of_rank_ne h, order_of_rank_ne (Ne.symm h)]
      exact OrientedOrd.eq_swap
  trans {a b c} ha hb hc hab hbc := by
    rcases isLE_order_iff.1 hab with lt | ⟨eq, hab⟩
    · rcases isLE_order_iff.1 hbc with lt' | ⟨eq', -⟩
      · exact isLE_order_iff.2 (.inl (Nat.lt_trans lt lt'))
      · exact isLE_order_iff.2 (.inl (eq' ▸ lt))
    · rcases isLE_order_iff.1 hbc with lt' | ⟨eq', hbc⟩
      · exact isLE_order_iff.2 (.inl (eq ▸ lt'))
      rcases Nat.lt_or_ge a.rank 7 with simple | structured
      · exact (alike_of_rank_lt ha hb simple eq).order_trans
          (alike_of_rank_lt hb hc (eq ▸ simple) eq') hab hbc
      · rw [order_of_seven_le_rank structured (eq.trans eq')]
        rfl

/-- The order of all values is linear on exact values. -/
theorem order_orders : OrdersOn (fun v : Value => v.isExact = true) order :=
  .of_places (order_places.imp fun _ => isDouble_of_isExact) fun {a b} ha hb hab => by
    by_cases h : a.rank = b.rank
    · exact (alike_of_rank ha hb h).eq_of_order hab
    · rw [order_of_rank_ne h] at hab
      exact absurd (LawfulEqOrd.eq_of_compare hab) h

/-- Values of one kind are equal exactly if they are level. -/
theorem Alike.equal_eq {a b : Value} (h : Alike a b) : a.equal b = (a.order b == .eq) := by
  cases h <;> rfl

/-- Values of different ranks are not equal. -/
theorem equal_of_rank_ne {a b : Value} (h : a.rank ≠ b.rank) : a.equal b = false := by
  cases a <;> cases b <;> first
    | rfl
    | exact absurd rfl h

/-- An exact value equals, for filters, itself only. -/
theorem equal_eq_true_iff {a b : Value} (ha : a.isExact = true) (hb : b.isExact = true) :
    a.equal b = true ↔ a = b := by
  by_cases h : a.rank = b.rank
  · rw [(alike_of_rank ha hb h).equal_eq, beq_iff_eq, order_orders.eq_iff ha hb]
  · rw [equal_of_rank_ne h]
    exact iff_of_false Bool.false_ne_true fun hab => h (congrArg rank hab)

end Value

/-! ### Tuples of keys -/

namespace Sorting

/-- A tuple of values with a property, one for every level. -/
def TupleOf (P : Value → Prop) (levels : Nat) (key : List Value) : Prop :=
  key.length = levels ∧ ∀ v ∈ key, P v

/-- A tuple of exact values, one for every level. -/
def IsTuple (levels : Nat) (key : List Value) : Prop :=
  key.length = levels ∧ ∀ v ∈ key, v.isExact = true

/-- Tuples are compared at their first level, and further on if they are level there. -/
theorem compareKeys_cons (desc : Bool) (levels : List Bool) (a b : Value) (as bs : List Value) :
    compareKeys (desc :: levels) (a :: as) (b :: bs)
      = (if desc then (a.order b).swap else a.order b).then (compareKeys levels as bs) := by
  rw [compareKeys]
  cases (if desc then (a.order b).swap else a.order b) <;> rfl

/-- The order of the keys of a level. -/
theorem level_orders (desc : Bool) : OrdersOn (fun v : Value => v.isExact = true)
    fun a b => if desc then (a.order b).swap else a.order b := by
  cases desc with
  | false => exact Value.order_orders
  | true => exact Value.order_orders.turned

/-- A tuple has a value for its first level and a tuple for the others. -/
theorem tupleOf_succ {P : Value → Prop} {levels : Nat} {key : List Value} :
    TupleOf P (levels + 1) key ↔ ∃ a as, key = a :: as ∧ P a ∧ TupleOf P levels as := by
  constructor
  · rintro ⟨hlen, hP⟩
    cases key with
    | nil => cases hlen
    | cons a as =>
      obtain ⟨ha, has⟩ := List.forall_mem_cons.1 hP
      exact ⟨a, as, rfl, ha, Nat.succ.inj hlen, has⟩
  · rintro ⟨a, as, rfl, ha, hlen, has⟩
    exact ⟨congrArg Nat.succ hlen, List.forall_mem_cons.2 ⟨ha, has⟩⟩

/-- A tuple of exact values starts with one, and goes on with a tuple for the other levels. -/
theorem isTuple_succ {levels : Nat} {key : List Value} :
    IsTuple (levels + 1) key ↔ ∃ a as, key = a :: as ∧ a.isExact = true ∧ IsTuple levels as :=
  tupleOf_succ

/-- A value for every level, each with the property of its level. -/
def Levelwise (P : Nat → Value → Prop) (levels : Nat) (key : List Value) : Prop :=
  key.length = levels ∧ ∀ (l : Nat) (v : Value), key[l]? = some v → P l v

/-- A tuple with a property for each level starts with a value that has the first. -/
theorem levelwise_succ {P : Nat → Value → Prop} {levels : Nat} {key : List Value}
    (h : Levelwise P (levels + 1) key) :
    ∃ a as, key = a :: as ∧ P 0 a ∧ Levelwise (fun l => P (l + 1)) levels as := by
  obtain ⟨hlen, hP⟩ := h
  cases key with
  | nil => cases hlen
  | cons a as => exact ⟨a, as, rfl, hP 0 a rfl, Nat.succ.inj hlen, fun l v hv => hP (l + 1) v hv⟩

/-- Keys are in a linear preorder if on every level the values are. -/
theorem compareKeys_places_levelwise {P : Nat → Value → Prop}
    (places : ∀ l, PlacesOn (P l) Value.order) (levels : List Bool) :
    PlacesOn (Levelwise P levels.length) (compareKeys levels) := by
  induction levels generalizing P with
  | nil => exact ⟨fun _ _ => rfl, fun _ _ _ _ _ => rfl⟩
  | cons desc levels ih =>
    have first : PlacesOn (P 0) fun a b => if desc then (a.order b).swap else a.order b := by
      cases desc with
      | false => exact places 0
      | true => exact (places 0).turned
    have rest := ih fun l => places (l + 1)
    refine ⟨fun {a b} ha hb => ?_, fun {a b c} ha hb hc => ?_⟩
    · obtain ⟨a, as, rfl, ha, has⟩ := levelwise_succ ha
      obtain ⟨b, bs, rfl, hb, hbs⟩ := levelwise_succ hb
      rw [compareKeys_cons, compareKeys_cons, first.swap ha hb, rest.swap has hbs,
        Ordering.swap_then]
    · obtain ⟨a, as, rfl, ha, has⟩ := levelwise_succ ha
      obtain ⟨b, bs, rfl, hb, hbs⟩ := levelwise_succ hb
      obtain ⟨c, cs, rfl, hc, hcs⟩ := levelwise_succ hc
      simp only [compareKeys_cons, Ordering.isLE_then_iff_and]
      rintro ⟨hab, hab'⟩ ⟨hbc, hbc'⟩
      refine ⟨first.trans ha hb hc hab hbc, ?_⟩
      -- the rest decides only if both pairs are level on the first key
      rcases hab' with lt | hab'
      · exact .inl (first.lt_of_lt_of_isLE ha hb hc lt hbc)
      · rcases hbc' with lt | hbc'
        · exact .inl (first.lt_of_isLE_of_lt ha hb hc hab lt)
        · exact .inr (rest.trans has hbs hcs hab' hbc')

/-- Tuples of keys are in a linear preorder if the keys are. -/
theorem compareKeys_places {P : Value → Prop} (places : PlacesOn P Value.order)
    (levels : List Bool) : PlacesOn (TupleOf P levels.length) (compareKeys levels) :=
  (compareKeys_places_levelwise (fun _ => places) levels).imp fun _ h =>
    ⟨h.1, fun _ v hv => h.2 v (List.mem_of_getElem? hv)⟩

/-- Tuples of exact keys are in a linear order. -/
theorem compareKeys_orders (levels : List Bool) :
    OrdersOn (IsTuple levels.length) (compareKeys levels) := by
  refine .of_places (compareKeys_places Value.order_orders.places levels) ?_
  intro a b ha hb
  induction levels generalizing a b with
  | nil =>
    rw [List.eq_nil_of_length_eq_zero ha.1, List.eq_nil_of_length_eq_zero hb.1]
    exact fun _ => rfl
  | cons desc levels ih =>
    obtain ⟨a, as, rfl, ha, has⟩ := isTuple_succ.1 ha
    obtain ⟨b, bs, rfl, hb, hbs⟩ := isTuple_succ.1 hb
    rw [compareKeys_cons, Ordering.then_eq_eq]
    rintro ⟨h, h'⟩
    rw [(level_orders desc).eq_of ha hb h, ih has hbs h']

/-- Further levels decide only what the first ones leave level. -/
theorem compareKeys_append {levels more : List Bool} {as bs as' bs' : List Value}
    (ha : as.length = levels.length) (hb : bs.length = levels.length) :
    compareKeys (levels ++ more) (as ++ as') (bs ++ bs')
      = (compareKeys levels as bs).then (compareKeys more as' bs') := by
  induction levels generalizing as bs with
  | nil =>
    rw [List.eq_nil_of_length_eq_zero ha, List.eq_nil_of_length_eq_zero hb]
    rfl
  | cons desc levels ih =>
    rcases as with _ | ⟨a, as⟩
    · cases ha
    rcases bs with _ | ⟨b, bs⟩
    · cases hb
    simp only [List.cons_append, compareKeys_cons, ih (Nat.succ.inj ha) (Nat.succ.inj hb),
      Ordering.then_assoc]

end Sorting

end DataGrid
