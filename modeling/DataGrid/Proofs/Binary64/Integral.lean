import DataGrid.Proofs.Binary64.Rounding

/-!
# Integral doubles

A finite double is integral if its units are those of an integer, which `Binary64.roundToInt` then
gives back (`isIntegral_iff`). So an integral double is one key with the double of its integer
(`same_ofInt_roundToInt`), and what is one key with the double of an integer up to `2 ^ 53` is
integral, with that integer (`isIntegral_of_same`).
-/

namespace DataGrid.Binary64

/-- Finite doubles of equal units are one key. -/
theorem same_of_units {x y : Binary64} (hx : x.isFinite = true) (hy : y.isFinite = true)
    (h : x.units = y.units) : x.same y = true := by
  by_cases zero : x.units = 0
  · exact same_of_magnitude_zero (units_eq_zero.1 zero) (units_eq_zero.1 (h ▸ zero))
  · have eq : x = y := by
      rw [← nearest_units hx zero, ← nearest_units hy (h ▸ zero), h]
    exact eq ▸ same_refl x

/-- What is the same as a number is a number, of as many units. -/
theorem units_of_same {x y : Binary64} (h : x.same y = true) (hy : y.isFinite = true) :
    x.units = y.units ∧ x.isFinite = true := by
  rcases same_cases h with rfl | ⟨-, nan⟩ | ⟨zero, zero'⟩
  · exact ⟨rfl, hy⟩
  · rw [isNaN_of_isFinite hy] at nan
    cases nan
  · exact ⟨(units_eq_zero.2 zero).trans (units_eq_zero.2 zero').symm,
      isFinite_of_magnitude_zero zero⟩

theorem natAbs_units (x : Binary64) : x.units.natAbs = amountOf x.magnitude := by
  rw [units]
  split <;> omega

/-- The significand counts a power of two that is a number of units, whatever the sign. -/
theorem significand_mul (x : Binary64) :
    x.significand * 2 ^ (x.exponent + unitExponent).toNat = x.units.natAbs := by
  rw [← x.signedSignificand_mul, Int.natAbs_mul, Int.natAbs_pow, signedSignificand]
  cases x.negative <;> simp

/-- The quotient that is rounded to an integer is the number of units over those of one. -/
theorem ratio_eq_mul_iff (x : Binary64) (c : Nat) :
    x.significand <<< x.exponent.toNat = c * (1 <<< (-x.exponent).toNat)
      ↔ x.units.natAbs = c * unitsPerOne := by
  have low := x.le_exponent
  have shifts : x.exponent.toNat + unitExponent
      = (-x.exponent).toNat + (x.exponent + unitExponent).toNat := by omega
  have positive (k : Nat) : 0 < 2 ^ k := Nat.two_pow_pos k
  rw [← x.significand_mul, Nat.shiftLeft_eq, Nat.one_shiftLeft, unitsPerOne]
  generalize (x.exponent + unitExponent).toNat = r at shifts ⊢
  -- both sides by a power of two that makes up for the shifts
  calc x.significand * 2 ^ x.exponent.toNat = c * 2 ^ (-x.exponent).toNat
      ↔ x.significand * 2 ^ x.exponent.toNat * 2 ^ r = c * 2 ^ (-x.exponent).toNat * 2 ^ r :=
        (Nat.mul_left_inj (positive r).ne').symm
    _ ↔ x.significand * 2 ^ r * 2 ^ x.exponent.toNat
        = c * 2 ^ unitExponent * 2 ^ x.exponent.toNat := by
      rw [Nat.mul_right_comm, Nat.mul_assoc c, ← Nat.pow_add, ← shifts,
        Nat.add_comm x.exponent.toNat, Nat.pow_add, ← Nat.mul_assoc c]
    _ ↔ x.significand * 2 ^ r = c * 2 ^ unitExponent := Nat.mul_left_inj (positive _).ne'

/-- The units of an integral double are those of the integer that it rounds to. -/
theorem units_of_isIntegral {x : Binary64} (h : x.isIntegral = true) :
    x.isFinite = true ∧ x.units = x.roundToInt * unitsPerOne := by
  rw [isIntegral, Bool.and_eq_true, beq_iff_eq] at h
  obtain ⟨c, ratio⟩ := Nat.dvd_of_mod_eq_zero h.2
  rw [Nat.mul_comm] at ratio
  have amount := (x.ratio_eq_mul_iff c).1 ratio
  have rounds : x.roundToInt = if x.negative then -(c : Int) else c := by
    have positive : 0 < 1 <<< (-x.exponent).toNat := by
      rw [Nat.one_shiftLeft]
      exact Nat.two_pow_pos _
    rw [roundToInt, ratio, nearestEven_mul_self positive]
  rw [natAbs_units] at amount
  refine ⟨h.1, ?_⟩
  rw [rounds, units, amount]
  split <;> push_cast <;> ring

/-- A finite double is integral, with an integer, exactly if its units are those of the integer. -/
theorem isIntegral_iff {x : Binary64} (finite : x.isFinite = true) (i : Int) :
    x.isIntegral = true ∧ x.roundToInt = i ↔ x.units = i * unitsPerOne := by
  have one : (unitsPerOne : Int) ≠ 0 := (Int.natCast_pos.2 unitsPerOne_pos).ne'
  constructor
  · rintro ⟨integral, rfl⟩
    exact (units_of_isIntegral integral).2
  · intro h
    have amount : x.units.natAbs = i.natAbs * unitsPerOne := by
      rw [h, Int.natAbs_mul, Int.natAbs_natCast]
    have integral : x.isIntegral = true := by
      rw [isIntegral, finite, (x.ratio_eq_mul_iff i.natAbs).2 amount, Nat.mul_mod_left]
      rfl
    have rounds := (units_of_isIntegral integral).2
    exact ⟨integral, Int.eq_of_mul_eq_mul_right one (rounds.symm.trans h)⟩

/-! ### Integers up to `2 ^ 53` -/

/-- An integral double is one key with the double of its integer. -/
theorem same_ofInt_roundToInt {x : Binary64} (h : x.isIntegral = true)
    (small : x.roundToInt.natAbs ≤ 2 * fractionLimit) :
    x.same (ofInt x.roundToInt) = true := by
  obtain ⟨finite, hx⟩ := units_of_isIntegral h
  obtain ⟨hi, finite'⟩ := units_ofInt small
  exact same_of_units finite finite' (hx.trans hi.symm)

/-- What is one key with the double of an integer is integral, with that integer. -/
theorem isIntegral_of_same {x : Binary64} {i : Int} (small : i.natAbs ≤ 2 * fractionLimit)
    (h : x.same (ofInt i) = true) : x.isIntegral = true ∧ x.roundToInt = i := by
  obtain ⟨hi, finite'⟩ := units_ofInt small
  obtain ⟨hx, finite⟩ := units_of_same h finite'
  exact (isIntegral_iff finite i).2 (hx.trans hi)

end DataGrid.Binary64
