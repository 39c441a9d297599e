import DataGrid.Proofs.Binary64.Rounding
import Mathlib.Algebra.Order.Field.Basic
import Mathlib.Algebra.Order.Ring.Rat
import Mathlib.Tactic.FieldSimp
import Mathlib.Tactic.Linarith
import Mathlib.Tactic.NormNum
import Mathlib.Tactic.Positivity

/-!
# The integer nearest to a double

`Binary64.toRat` is the number that a finite double stands for, and `IsNearest` says which integer
is nearest to a number, ties to even.

* A number has no two nearest integers (`IsNearest.unique`), and `Binary64.roundToInt` is the one of
  a double (`Binary64.isNearest_roundToInt`).
* Doubles from `2 ^ 52` on are integers themselves (`Binary64.toRat_cases`), so nothing is rounded
  there (`Binary64.toRat_of_isNearest`).
-/

namespace DataGrid

/-- An integer is nearest to a number: they differ by a half at most, and then the integer is
even. -/
structure IsNearest (q : ℚ) (n : ℤ) : Prop where
  /-- no other integer is nearer -/
  near : |q - n| ≤ 1 / 2
  /-- of two that are equally near it is the even one -/
  even : |q - n| = 1 / 2 → Even n

namespace IsNearest

variable {q : ℚ} {n m : ℤ}

/-- A number has one nearest integer, since of two that are equally near one is odd. -/
theorem unique (hn : IsNearest q n) (hm : IsNearest q m) : n = m := by
  have apart : |(n : ℚ) - m| ≤ |q - n| + |q - m| := by
    rw [abs_sub_comm q n]
    exact abs_sub_le (n : ℚ) q m
  by_contra other
  have one : (1 : ℚ) ≤ |(n : ℚ) - m| := by
    exact_mod_cast Int.one_le_abs (sub_ne_zero.2 other)
  -- both are a half away, on either side
  have halfway : |q - n| = 1 / 2 ∧ |q - m| = 1 / 2 := by
    constructor <;> linarith [hn.near, hm.near]
  have next : |n - m| = 1 := by
    have le : |(n : ℚ) - m| ≤ 1 := by linarith [halfway.1, halfway.2]
    exact_mod_cast le_antisymm le one
  obtain ⟨a, ha⟩ := hn.even halfway.1
  obtain ⟨b, hb⟩ := hm.even halfway.2
  rcases (abs_eq zero_le_one).1 next with above | below <;> omega

theorem neg (h : IsNearest q n) : IsNearest (-q) (-n) := by
  have same : |-q - (-n : ℤ)| = |q - n| := by
    rw [Int.cast_neg, ← abs_neg]
    congr 1
    ring
  exact ⟨same ▸ h.near, fun half => (h.even (same ▸ half)).neg⟩

theorem self (n : ℤ) : IsNearest n n := by
  constructor <;> norm_num

/-- In a quotient the distances may be measured in halves of the denominator. -/
theorem div {num den n : ℕ} (positive : 0 < den) (low : 2 * n * den ≤ 2 * num + den)
    (high : 2 * num ≤ 2 * n * den + den)
    (even : 2 * n * den = 2 * num + den ∨ 2 * num = 2 * n * den + den → Even n) :
    IsNearest ((num : ℚ) / den) n := by
  have parts : (0 : ℚ) < den := Nat.cast_pos.2 positive
  have whole : (num : ℚ) = num / den * den := (div_mul_cancel₀ _ parts.ne').symm
  generalize (num : ℚ) / den = q at whole
  constructor
  · have low : (2 * n * den : ℚ) ≤ 2 * num + den := by exact_mod_cast low
    have high : (2 * num : ℚ) ≤ 2 * n * den + den := by exact_mod_cast high
    rw [whole] at low high
    rw [abs_le]
    constructor <;> refine le_of_mul_le_mul_right ?_ parts <;> push_cast <;> linarith
  · intro half
    refine (Int.even_coe_nat n).2 (even ?_)
    rcases (abs_eq (by norm_num)).1 half with above | below
    · have tie : (2 * num : ℚ) = 2 * n * den + den := by
        rw [whole, sub_eq_iff_eq_add.1 above]
        push_cast
        ring
      exact .inr (by exact_mod_cast tie)
    · have tie : (2 * n * den : ℚ) = 2 * num + den := by
        rw [whole, sub_eq_iff_eq_add.1 below]
        push_cast
        ring
      exact .inl (by exact_mod_cast tie)

end IsNearest

/-- Rounding a quotient gives its nearest integer. -/
theorem isNearest_nearestEven (num : ℕ) {den : ℕ} (positive : 0 < den) :
    IsNearest ((num : ℚ) / den) (nearestEven num den) := by
  have whole := Nat.div_add_mod' num den
  have small := Nat.mod_lt num positive
  have below : 2 * (num / den) * den = 2 * (num / den * den) := Nat.mul_assoc _ _ _
  have above : 2 * (num / den + 1) * den = 2 * (num / den * den) + 2 * den := by ring
  rw [nearestEven]
  split_ifs with less more even
  · exact .div positive (by omega) (by omega) (by omega)
  · exact .div positive (by omega) (by omega) (by omega)
  · exact .div positive (by omega) (by omega) fun _ => Nat.even_iff.2 even
  · exact .div positive (by omega) (by omega) fun _ => Nat.even_add_one.2 (by rwa [Nat.even_iff])

namespace Binary64

variable (x : Binary64)

/-- The number that a finite double stands for. -/
def toRat : ℚ := x.signedSignificand * 2 ^ x.exponent

/-- The number without its sign is the quotient that is rounded. -/
theorem significand_mul_zpow : (x.significand : ℚ) * 2 ^ x.exponent
    = (x.significand <<< x.exponent.toNat : ℕ) / (1 <<< (-x.exponent).toNat : ℕ) := by
  rw [Nat.shiftLeft_eq, Nat.one_shiftLeft]
  push_cast
  rcases Int.le_total 0 x.exponent with whole | part
  · obtain ⟨k, hk⟩ := Int.eq_ofNat_of_zero_le whole
    rw [hk]
    simp
  · obtain ⟨k, hk⟩ := Int.eq_ofNat_of_zero_le (Int.neg_nonneg_of_nonpos part)
    have exponent : x.exponent = -(k : ℤ) := by omega
    rw [exponent]
    simp [div_eq_mul_inv]

/-- Rounding a double gives the integer nearest to its value. -/
theorem isNearest_roundToInt : IsNearest x.toRat x.roundToInt := by
  have nearest : IsNearest ((x.significand : ℚ) * 2 ^ x.exponent) _ :=
    x.significand_mul_zpow ▸ isNearest_nearestEven _ (by rw [Nat.one_shiftLeft]; positivity)
  rw [toRat, signedSignificand, roundToInt]
  cases x.negative with
  | false => simpa using nearest
  | true => simpa using nearest.neg

/-- An integer is nearest to a double exactly if the double is rounded to it. -/
theorem isNearest_toRat_iff {n : ℤ} : IsNearest x.toRat n ↔ n = x.roundToInt :=
  ⟨fun h => h.unique x.isNearest_roundToInt, fun h => h ▸ x.isNearest_roundToInt⟩

theorem significand_lt : x.significand < 2 * fractionLimit := by
  have small : x.magnitude % fractionLimit < fractionLimit := Nat.mod_lt _ (by decide)
  rw [significand]
  split <;> omega

/-- The absolute value of a double is its significand at its exponent. -/
theorem abs_toRat : |x.toRat| = x.significand * 2 ^ x.exponent := by
  have positive : (0 : ℚ) < 2 ^ x.exponent := zpow_pos (by norm_num) _
  rw [toRat, abs_mul, abs_of_pos positive, signedSignificand]
  cases x.negative <;> simp

/-- A double is an integer, or less than `2 ^ 52`. -/
theorem toRat_cases : (∃ n : ℤ, x.toRat = n) ∨ |x.toRat| < 2 ^ 52 := by
  rcases lt_or_ge x.exponent 0 with part | whole
  · right
    have half : (2 : ℚ) ^ x.exponent ≤ 2 ^ (-1 : ℤ) :=
      zpow_le_zpow_right₀ (by norm_num) (by omega)
    have limit : (x.significand : ℚ) < 2 * fractionLimit := by exact_mod_cast x.significand_lt
    calc |x.toRat| = x.significand * 2 ^ x.exponent := x.abs_toRat
      _ ≤ x.significand * 2 ^ (-1 : ℤ) := mul_le_mul_of_nonneg_left half (Nat.cast_nonneg _)
      _ < 2 * fractionLimit * 2 ^ (-1 : ℤ) := mul_lt_mul_of_pos_right limit (by norm_num)
      _ = 2 ^ 52 := by norm_num [fractionLimit_eq]
  · obtain ⟨k, hk⟩ := Int.eq_ofNat_of_zero_le whole
    refine .inl ⟨x.signedSignificand * 2 ^ k, ?_⟩
    rw [toRat, hk]
    push_cast
    rfl

/-- No double above `2 ^ 52` is rounded. -/
theorem toRat_of_isNearest {n : ℤ} (large : 2 ^ 52 < |n|) (h : IsNearest x.toRat n) :
    x.toRat = n := by
  rcases x.toRat_cases with ⟨m, hm⟩ | small
  · rw [hm, (IsNearest.self m).unique (hm ▸ h)]
  · have large : (2 ^ 52 + 1 : ℚ) ≤ |(n : ℚ)| := by exact_mod_cast large
    have apart := abs_sub_abs_le_abs_sub (n : ℚ) x.toRat
    have near := h.near
    rw [abs_sub_comm] at near
    linarith

end Binary64

end DataGrid
