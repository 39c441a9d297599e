import DataGrid.Proofs.Binary64.Rounding
import DataGrid.Proofs.Value.Ordering

/-!
# Where the order of values is not transitive

`Value.order` compares two integers exactly, an integer and a double as doubles, and leaves a NaN
level with every number. Turning it around turns its outcome for all values (`Value.order_swap`),
but it is no preorder: a double can *blur* the order of two numbers, by being level with both.

* `Value.Blurs x a c` says that a double `x` is level with two numbers for one of these reasons: it
  is a NaN, or it is the double of two integers.
* The order is transitive but for greater and lesser numbers with a double between them that blurs
  their order (`Value.order_laws`).
* So it is a linear preorder of the values that are no NaN and, where integers, at most `2 ^ 53`
  (`Value.order_places_distinct`).
-/

namespace DataGrid

open Std

/-! ### Doubles -/

namespace Binary64

/-- Turning a comparison of doubles turns its outcome, if it has one. -/
theorem compare?_swap (x y : Binary64) : x.compare? y = (y.compare? x).map Ordering.swap := by
  rw [compare?, compare?, Bool.or_comm]
  split
  · rfl
  · exact congrArg some OrientedOrd.eq_swap

/-- What comes out no greater is no number or has no greater rank. -/
theorem isLE_compare? {x y : Binary64} :
    ((x.compare? y).getD .eq).isLE ↔ x.isNaN = true ∨ y.isNaN = true ∨ x.rank ≤ y.rank := by
  rw [compare?]
  cases x.isNaN <;> cases y.isNaN <;> simp [isLE_compare]

end Binary64

namespace Value

/-! ### Numbers -/

/-- The values of the rank of numbers are those that can be read as doubles. -/
theorem exists_asFloat?_iff {v : Value} : (∃ x, v.asFloat? = some x) ↔ v.rank = 2 := by
  cases v <;> simp [asFloat?, rank]

section Numbers

variable {v w : Value} {x y : Binary64} (hv : v.asFloat? = some x) (hw : w.asFloat? = some y)
include hv hw

/-- Two numbers are integers, or they are compared as doubles. -/
theorem numbers_cases :
    (∃ i j : Int64, v = int i ∧ w = int j ∧ x = Binary64.ofInt i.toInt ∧ y = Binary64.ofInt j.toInt)
    ∨ (v.isDouble = true ∨ w.isDouble = true) ∧ v.order w = (x.compare? y).getD .eq := by
  cases v with
  | int i =>
    cases w with
    | int j => cases hv; cases hw; exact .inl ⟨i, j, rfl, rfl, rfl, rfl⟩
    | float => cases hv; cases hw; exact .inr ⟨.inr rfl, rfl⟩
    | _ => cases hw
  | float =>
    cases w with
    | int | float => cases hv; cases hw; exact .inr ⟨.inl rfl, rfl⟩
    | _ => cases hw
  | _ => cases hv

/-- A number that comes out no greater has no greater double, but for NaN. -/
theorem ranks_of_isLE (h : (v.order w).isLE) :
    x.isNaN = true ∨ y.isNaN = true ∨ x.rank ≤ y.rank := by
  rcases numbers_cases hv hw with ⟨i, j, rfl, rfl, rfl, rfl⟩ | ⟨-, horder⟩
  · exact .inr (.inr (Binary64.rank_ofInt_mono (isLE_compare.1 h)))
  · rw [horder] at h
    exact Binary64.isLE_compare?.1 h

/-- A number that comes out greater than another is no NaN, nor is the other. -/
theorem ranks_of_gt (h : v.order w = .gt) :
    x.isNaN = false ∧ y.isNaN = false ∧ y.rank ≤ x.rank
      ∧ (v.isDouble = true ∨ w.isDouble = true → y.rank < x.rank) := by
  rcases numbers_cases hv hw with ⟨i, j, rfl, rfl, rfl, rfl⟩ | ⟨-, horder⟩
  · have greater : j.toInt < i.toInt := compare_eq_gt.1 h
    exact ⟨Binary64.isNaN_ofInt _, Binary64.isNaN_ofInt _,
      Binary64.rank_ofInt_mono (Int.le_of_lt greater), by rintro (h | h) <;> cases h⟩
  · have not : ¬ ((x.compare? y).getD .eq).isLE := by
      rw [← horder, h]
      exact Bool.false_ne_true
    rw [Binary64.isLE_compare?] at not
    simp only [not_or, Bool.not_eq_true, Int.not_le] at not
    exact ⟨not.1, not.2.1, not.2.2.le, fun _ => not.2.2⟩

end Numbers

theorem rank_of_isDouble {v : Value} (h : v.isDouble = true) : v.rank = 2 := by
  cases v <;> first | rfl | cases h

/-- If one of two values of one rank is a double, both are numbers. -/
theorem ranks_of_isDouble {a b : Value} (h : a.rank = b.rank)
    (double : a.isDouble = true ∨ b.isDouble = true) : a.rank = 2 ∧ b.rank = 2 := by
  rcases double with double | double
  · exact ⟨rank_of_isDouble double, h ▸ rank_of_isDouble double⟩
  · exact ⟨h.trans (rank_of_isDouble double), rank_of_isDouble double⟩

/-- The order of all values may be turned around. -/
theorem order_swap (a b : Value) : a.order b = (b.order a).swap := by
  by_cases h : a.rank = b.rank
  · by_cases double : a.isDouble = true ∨ b.isDouble = true
    · obtain ⟨ha, hb⟩ := ranks_of_isDouble h double
      obtain ⟨x, hx⟩ := exists_asFloat?_iff.2 ha
      obtain ⟨y, hy⟩ := exists_asFloat?_iff.2 hb
      rcases numbers_cases hx hy with ⟨i, j, rfl, rfl, -⟩ | ⟨-, hab⟩
      · exact OrientedOrd.eq_swap (α := Int)
      rcases numbers_cases hy hx with ⟨i, j, rfl, rfl, -⟩ | ⟨-, hba⟩
      · exact OrientedOrd.eq_swap (α := Int)
      rw [hab, hba, Binary64.compare?_swap]
      cases y.compare? x <;> rfl
    · simp only [not_or, Bool.not_eq_true] at double
      exact order_places.swap double.1 double.2
  · rw [order_of_rank_ne h, order_of_rank_ne (Ne.symm h)]
    exact OrientedOrd.eq_swap

/-! ### Blurring -/

/-- A double is level with two numbers though it tells nothing of their order: it is a NaN, or it is
nearest to both of them, which are integers. -/
inductive Blurs (x : Binary64) : Value → Value → Prop where
  /-- a NaN is level with all numbers -/
  | nan {a c : Value} (hx : x.isNaN = true) (ha : a.rank = 2) (hc : c.rank = 2) : Blurs x a c
  /-- a double is level with all integers that it is nearest to -/
  | rounded {i k : Int64} (hi : (Binary64.ofInt i.toInt).rank = x.rank)
    (hk : (Binary64.ofInt k.toInt).rank = x.rank) : Blurs x (int i) (int k)

/-- A double that blurs two values stands between them, as it is level with both. -/
theorem Blurs.isLE {x : Binary64} {a c : Value} (h : Blurs x a c) :
    (a.order (float x)).isLE ∧ ((float x).order c).isLE := by
  cases h with
  | nan hx ha hc =>
    obtain ⟨y, hy⟩ := exists_asFloat?_iff.2 ha
    obtain ⟨z, hz⟩ := exists_asFloat?_iff.2 hc
    have here : (float x).asFloat? = some x := rfl
    constructor
    · rcases numbers_cases hy here with ⟨_, _, _, ⟨⟩, _⟩ | ⟨-, h⟩
      rw [h, Binary64.isLE_compare?]
      exact .inr (.inl hx)
    · rcases numbers_cases here hz with ⟨_, _, ⟨⟩, _⟩ | ⟨-, h⟩
      rw [h, Binary64.isLE_compare?]
      exact .inl hx
  | rounded hi hk =>
    exact ⟨Binary64.isLE_compare?.2 (.inr (.inr hi.le)),
      Binary64.isLE_compare?.2 (.inr (.inr hk.ge))⟩

/-- Of numbers, only a double that blurs the order comes between a greater and a lesser one. -/
theorem blurs_of_numbers {a b c : Value} (hb : b.rank = 2) (ha : a.rank = 2) (hc : c.rank = 2)
    (hab : (a.order b).isLE) (hbc : (b.order c).isLE) (hac : a.order c = .gt) :
    ∃ x, b = float x ∧ Blurs x a c := by
  obtain ⟨x, hx⟩ := exists_asFloat?_iff.2 ha
  obtain ⟨y, hy⟩ := exists_asFloat?_iff.2 hb
  obtain ⟨z, hz⟩ := exists_asFloat?_iff.2 hc
  obtain ⟨numx, numz, ranks, strict⟩ := ranks_of_gt hx hz hac
  have hxy := ranks_of_isLE hx hy hab
  have hyz := ranks_of_isLE hy hz hbc
  simp only [numx, numz, Bool.false_eq_true, false_or] at hxy hyz
  cases b with
  | float y' =>
    cases hy
    refine ⟨y, rfl, ?_⟩
    cases numy : y.isNaN with
    | true => exact .nan numy ha hc
    | false =>
      simp only [numy, Bool.false_eq_true, false_or] at hxy hyz
      rcases numbers_cases hx hz with ⟨i, k, rfl, rfl, rfl, rfl⟩ | ⟨double, -⟩
      · exact .rounded (Int.le_antisymm hxy (hyz.trans ranks))
          (Int.le_antisymm (ranks.trans hxy) hyz)
      · have := strict double
        omega
  | int j =>
    cases hy
    simp only [Binary64.isNaN_ofInt, Bool.false_eq_true, false_or] at hxy hyz
    rcases numbers_cases hx hz with ⟨i, k, rfl, rfl, rfl, rfl⟩ | ⟨double, -⟩
    · -- three integers are compared exactly
      have hik := TransOrd.isLE_trans (α := Int) hab hbc
      rw [show compare i.toInt k.toInt = .gt from hac] at hik
      cases hik
    · have := strict double
      omega
  | _ => cases hy

/-- If the order of three values goes around, they are of one rank. -/
theorem rank_eq_of_around {a b c : Value} (hab : (a.order b).isLE) (hbc : (b.order c).isLE)
    (hac : a.order c = .gt) : a.rank = b.rank ∧ b.rank = c.rank := by
  have hca : (c.order a).isLE := by
    rw [order_swap c a, hac]
    rfl
  have le {v w : Value} (h : (v.order w).isLE) : v.rank ≤ w.rank := by
    rcases isLE_order_iff.1 h with lt | ⟨eq, -⟩
    · exact lt.le
    · exact eq.le
  have := le hab
  have := le hbc
  have := le hca
  omega

/-- What comes between a greater value and a lesser one is a double that blurs their order. -/
theorem exists_blurs {a b c : Value} (hab : (a.order b).isLE) (hbc : (b.order c).isLE)
    (hac : a.order c = .gt) : ∃ x, b = float x ∧ Blurs x a c := by
  obtain ⟨hab', hbc'⟩ := rank_eq_of_around hab hbc hac
  by_cases number : b.rank = 2
  · exact blurs_of_numbers number (hab'.trans number) (hbc'.symm.trans number) hab hbc hac
  · -- no value of another rank is a double
    have exact {v : Value} (h : v.rank = b.rank) : v.isDouble = false :=
      Bool.eq_false_of_not_eq_true fun hv => number (h.symm.trans (rank_of_isDouble hv))
    have le := order_places.trans (exact hab') (exact rfl) (exact hbc'.symm) hab hbc
    rw [hac] at le
    cases le

/-- The order of all values may be turned around. It is transitive but for two numbers and a double
between them that blurs their order: a NaN, or a double that is nearest to two integers. -/
theorem order_laws (a b c : Value) : b.order a = (a.order b).swap
    ∧ (a.order b ≠ .gt ∧ b.order c ≠ .gt ∧ a.order c = .gt
      ↔ a.order c = .gt ∧ ∃ x, b = float x ∧ Blurs x a c) := by
  refine ⟨order_swap b a, ?_, ?_⟩
  · rintro ⟨hab, hbc, hac⟩
    exact ⟨hac, exists_blurs (Ordering.isLE_iff_ne_gt.2 hab) (Ordering.isLE_iff_ne_gt.2 hbc) hac⟩
  · rintro ⟨hac, x, rfl, blurs⟩
    exact ⟨Ordering.isLE_iff_ne_gt.1 blurs.isLE.1, Ordering.isLE_iff_ne_gt.1 blurs.isLE.2, hac⟩

/-- The double nearest to `2 ^ 53 + 1` is level with it and with `2 ^ 53`. -/
theorem order_goes_around :
    let greater := int 9007199254740993
    let between := float ⟨0x4340000000000000⟩
    let lesser := int 9007199254740992
    greater.order between ≠ .gt ∧ between.order lesser ≠ .gt ∧ greater.order lesser = .gt := by
  decide

/-! ### Numbers that doubles tell apart -/

/-- A value that no double blurs: it is no NaN, and at most `2 ^ 53` if it is an integer. -/
def Distinct : Value → Prop
  | int i => i.toInt.natAbs ≤ 2 * Binary64.fractionLimit
  | float x => x.isNaN = false
  | _ => True

/-- Values that no double blurs are not blurred. -/
theorem not_blurs_of_distinct {x : Binary64} {a c : Value} (ha : a.Distinct)
    (hx : (float x).Distinct) (hc : c.Distinct) (hac : a.order c = .gt) : ¬ Blurs x a c := by
  intro blurs
  cases blurs with
  | nan nan => exact Bool.false_ne_true (hx.symm.trans nan)
  | @rounded i k hi hk =>
    have greater : k.toInt < i.toInt := compare_eq_gt.1 hac
    have same : i.toInt = k.toInt := Binary64.eq_of_rank_ofInt ha hc (hi.trans hk.symm)
    omega

/-- The order is a linear preorder of the values that no double blurs. -/
theorem order_places_distinct : PlacesOn Distinct order where
  swap _ _ := order_swap _ _
  trans {a b c} ha hb hc hab hbc := by
    by_contra hac
    have hac : a.order c = .gt := by simpa using hac
    obtain ⟨x, rfl, blurs⟩ := exists_blurs hab hbc hac
    exact not_blurs_of_distinct ha hb hc hac blurs

end Value

end DataGrid
