import DataGrid.Binary64.Round
import Mathlib.Tactic.Ring

/-!
# Doubles as numbers of units

The least positive double is a *unit*, `2 ^ -1074`, and every finite double is a whole number of
units (`Binary64.units`). Rounding is told in units too: `Binary64.unitMagnitude` is the magnitude
of the double nearest to a number of units.

* Rounding keeps the order (`unitMagnitude_mono`), and a finite double is the double nearest to its
  own units (`unitMagnitude_amountOf`).
* `Binary64.ofInt` and `Binary64.add` round the exact numbers of units (`ofInt_eq`, `add_eq`).

So the double of an integer is a number, greater integers have no lesser doubles
(`rank_ofInt_mono`), and the doubles of integers up to `2 ^ 53` are added as the integers are
(`add_ofInt`).
-/

namespace DataGrid

/-! ### The nearest integer -/

section Nearest

variable {c num num' den : Nat}

/-- Rounding does not go below an integer that the quotient does not go below. -/
theorem le_nearestEven (positive : 0 < den) (h : c * den ≤ num) : c ≤ nearestEven num den := by
  have le : c ≤ num / den := (Nat.le_div_iff_mul_le positive).2 h
  simp only [nearestEven]
  split_ifs <;> omega

/-- Nor does it go above one that the quotient does not go above. -/
theorem nearestEven_le (positive : 0 < den) (h : num ≤ c * den) : nearestEven num den ≤ c := by
  have whole := Nat.div_add_mod' num den
  rcases Nat.lt_or_ge (num / den) c with lt | ge
  · simp only [nearestEven]
    split_ifs <;> omega
  · -- the quotient is no more than `c`, so that nothing remains
    have same : num / den = c := Nat.le_antisymm (Nat.div_le_of_le_mul (by rwa [Nat.mul_comm])) ge
    rw [same] at whole
    have none : num % den = 0 := by omega
    simp only [nearestEven, none, Nat.mul_zero, if_pos positive, same, Nat.le_refl]

/-- A quotient that is an integer is rounded to itself. -/
theorem nearestEven_mul_self (positive : 0 < den) (c : Nat) : nearestEven (c * den) den = c :=
  Nat.le_antisymm (nearestEven_le positive (Nat.le_refl _))
    (le_nearestEven positive (Nat.le_refl _))

/-- Rounding keeps the order of numerators. -/
theorem nearestEven_mono (h : num ≤ num') (den : Nat) :
    nearestEven num den ≤ nearestEven num' den := by
  have le : num / den ≤ num' / den := Nat.div_le_div_right h
  have whole := Nat.div_add_mod' num den
  have whole' := Nat.div_add_mod' num' den
  rcases Nat.lt_or_ge (num / den) (num' / den) with lt | ge
  · simp only [nearestEven]
    split_ifs <;> omega
  · have same : num / den = num' / den := Nat.le_antisymm le ge
    rw [same] at whole
    simp only [nearestEven, same]
    split_ifs <;> omega

/-- Only the quotient counts. -/
theorem nearestEven_mul {k : Nat} (positive : 0 < k) (num den : Nat) :
    nearestEven (num * k) (den * k) = nearestEven num den := by
  have less (a b : Nat) : 2 * (a * k) < b * k ↔ 2 * a < b := by
    rw [← Nat.mul_assoc, Nat.mul_lt_mul_right positive]
  have more (a b : Nat) : b * k < 2 * (a * k) ↔ b < 2 * a := by
    rw [← Nat.mul_assoc, Nat.mul_lt_mul_right positive]
  simp only [nearestEven, Nat.mul_div_mul_right _ _ positive, Nat.mul_mod_mul_right, less, more]

/-- Equal quotients are rounded to the same integer. -/
theorem nearestEven_congr {den' : Nat} (positive : 0 < den) (positive' : 0 < den')
    (h : num * den' = num' * den) : nearestEven num den = nearestEven num' den' := by
  rw [← nearestEven_mul positive' num den, ← nearestEven_mul positive num' den', h,
    Nat.mul_comm den den']

end Nearest

namespace Binary64

/-! ### Signs and magnitudes -/

theorem infinityMagnitude_lt : infinityMagnitude < signBit := by decide

/-- The pattern of a magnitude and a sign is their sum. -/
theorem toNat_bits_ofMagnitude (negative : Bool) {m : Nat} (h : m < signBit) :
    (ofMagnitude negative m).bits.toNat = m + if negative then signBit else 0 := by
  have limit : signBit = 9223372036854775808 := by decide
  rw [ofMagnitude, UInt64.toNat_ofNat']
  refine Nat.mod_eq_of_lt ?_
  split <;> omega

theorem magnitude_ofMagnitude (negative : Bool) {m : Nat} (h : m < signBit) :
    (ofMagnitude negative m).magnitude = m := by
  rw [magnitude, toNat_bits_ofMagnitude negative h]
  cases negative with
  | true => exact (Nat.add_mod_right m signBit).trans (Nat.mod_eq_of_lt h)
  | false => exact Nat.mod_eq_of_lt h

theorem negative_ofMagnitude (negative : Bool) {m : Nat} (h : m < signBit) :
    (ofMagnitude negative m).negative = negative := by
  rw [Binary64.negative, toNat_bits_ofMagnitude negative h]
  cases negative with
  | true => exact decide_eq_true (Nat.le_add_left _ _)
  | false => exact decide_eq_false (Nat.not_le_of_lt h)

/-- A double is its sign and its magnitude. -/
theorem ofMagnitude_eta (x : Binary64) : ofMagnitude x.negative x.magnitude = x := by
  have limit : signBit = 9223372036854775808 := by decide
  have bound := x.bits.toNat_lt
  have same : x.magnitude + (if x.negative then signBit else 0) = x.bits.toNat := by
    simp only [magnitude, negative, limit, decide_eq_true_eq]
    split <;> omega
  rw [ofMagnitude, same, UInt64.ofNat_toNat]

/-! ### Magnitudes and units -/

/-- The number of units of a magnitude: the significand shifted by the exponent field less one. -/
def amountOf (m : Nat) : Nat :=
  if m < fractionLimit then m
  else (fractionLimit + m % fractionLimit) * 2 ^ (m / fractionLimit - 1)

/-- The magnitude of the double nearest to a number of units, were there no greatest one. -/
def unitMagnitude (n : Nat) : Nat :=
  (n.log2 - 52) * fractionLimit + nearestEven n (2 ^ (n.log2 - 52))

theorem fractionLimit_eq : fractionLimit = 2 ^ 52 := by decide

/-- Up to two binades of units, every number of them is a double. -/
theorem unitMagnitude_of_lt {n : Nat} (h : n < fractionLimit) : unitMagnitude n = n := by
  have small : n.log2 - 52 = 0 := by
    rcases Nat.eq_zero_or_pos n with rfl | positive
    · rfl
    · have := (Nat.log2_lt positive.ne').2 (fractionLimit_eq ▸ h)
      omega
  rw [unitMagnitude, small, Nat.zero_mul, Nat.zero_add, Nat.pow_zero, nearestEven_one]

/-- A significand in a binade. -/
theorem unitMagnitude_shift {f : Nat} (low : fractionLimit ≤ f) (high : f < 2 * fractionLimit)
    (k : Nat) : unitMagnitude (f * 2 ^ k) = k * fractionLimit + f := by
  rw [fractionLimit_eq] at low high
  have positive : 0 < 2 ^ k := Nat.two_pow_pos k
  have log : (f * 2 ^ k).log2 = 52 + k := by
    rw [Nat.log2_eq_iff (Nat.mul_pos (Nat.lt_of_lt_of_le (by decide) low) positive).ne']
    constructor
    · rw [Nat.pow_add]
      exact Nat.mul_le_mul_right _ low
    · rw [show 52 + k + 1 = 53 + k from by omega, Nat.pow_add]
      exact Nat.mul_lt_mul_of_pos_right high positive
  rw [unitMagnitude, log, Nat.add_sub_cancel_left, nearestEven_mul_self positive]

/-- A magnitude is that of the double nearest to its units. -/
theorem unitMagnitude_amountOf (m : Nat) : unitMagnitude (amountOf m) = m := by
  have positive : 0 < fractionLimit := by decide
  rw [amountOf]
  split
  next h => exact unitMagnitude_of_lt h
  next h =>
    have whole := Nat.div_add_mod m fractionLimit
    have rest := Nat.mod_lt m positive
    have field : 1 ≤ m / fractionLimit := Nat.div_pos (Nat.le_of_not_lt h) positive
    rw [unitMagnitude_shift (Nat.le_add_right _ _) (by omega)]
    calc (m / fractionLimit - 1) * fractionLimit + (fractionLimit + m % fractionLimit)
        = (m / fractionLimit - 1 + 1) * fractionLimit + m % fractionLimit := by ring
      _ = m := by rw [Nat.sub_add_cancel field, Nat.mul_comm, whole]

/-- A number of units within its binade. -/
theorem exists_shift {n : Nat} (h : fractionLimit ≤ n) :
    2 ^ (n.log2 - 52 + 52) ≤ n ∧ n < 2 ^ (n.log2 - 52 + 53) := by
  rw [fractionLimit_eq] at h
  have nonzero : n ≠ 0 := by omega
  have log := (Nat.le_log2 nonzero).2 h
  rw [Nat.sub_add_cancel log, show n.log2 - 52 + 53 = n.log2 + 1 from by omega]
  exact ⟨Nat.log2_self_le nonzero, Nat.lt_log2_self⟩

/-- More units have no smaller magnitude. -/
theorem unitMagnitude_mono {n n' : Nat} (h : n ≤ n') : unitMagnitude n ≤ unitMagnitude n' := by
  have positive (k : Nat) : 0 < 2 ^ k := Nat.two_pow_pos k
  rcases Nat.lt_or_ge n' fractionLimit with small | large
  · rwa [unitMagnitude_of_lt small, unitMagnitude_of_lt (Nat.lt_of_le_of_lt h small)]
  have low : (n'.log2 - 52) * fractionLimit + fractionLimit ≤ unitMagnitude n' := by
    refine Nat.add_le_add_left (le_nearestEven (positive _) ?_) _
    rw [fractionLimit_eq, ← Nat.pow_add, Nat.add_comm]
    exact (exists_shift large).1
  rcases Nat.lt_or_ge n fractionLimit with small' | large'
  · rw [unitMagnitude_of_lt small']
    omega
  have log : n.log2 ≤ n'.log2 := by
    have zero : 0 < fractionLimit := by decide
    rw [Nat.le_log2 (by omega)]
    exact Nat.le_trans (Nat.log2_self_le (by omega)) h
  rcases Nat.lt_or_ge (n.log2 - 52) (n'.log2 - 52) with lt | ge
  · -- the significand may at most reach the next binade
    have high : unitMagnitude n ≤ (n.log2 - 52) * fractionLimit + 2 * fractionLimit := by
      refine Nat.add_le_add_left (nearestEven_le (positive _) ?_) _
      rw [fractionLimit_eq, ← Nat.pow_succ', ← Nat.pow_add, Nat.add_comm]
      exact (exists_shift large').2.le
    calc unitMagnitude n ≤ (n.log2 - 52) * fractionLimit + 2 * fractionLimit := high
      _ = (n.log2 - 52 + 1) * fractionLimit + fractionLimit := by ring
      _ ≤ (n'.log2 - 52) * fractionLimit + fractionLimit :=
        Nat.add_le_add_right (Nat.mul_le_mul_right _ lt) _
      _ ≤ unitMagnitude n' := low
  · have same : n.log2 - 52 = n'.log2 - 52 := by omega
    rw [unitMagnitude, unitMagnitude, same]
    exact Nat.add_le_add_left (nearestEven_mono h _) _

/-- What a significand of 53 bits counts is a double. -/
theorem amountOf_unitMagnitude {n : Nat} (h : 2 ^ (n.log2 - 52) ∣ n) :
    amountOf (unitMagnitude n) = n := by
  rcases Nat.lt_or_ge n fractionLimit with small | large
  · rw [unitMagnitude_of_lt small, amountOf, if_pos small]
  obtain ⟨low, high⟩ := exists_shift large
  obtain ⟨f, hf⟩ := h
  generalize n.log2 - 52 = k at low high hf
  have positive : 0 < 2 ^ k := Nat.two_pow_pos k
  have lowf : fractionLimit ≤ f := by
    rw [hf, Nat.pow_add, ← fractionLimit_eq] at low
    exact Nat.le_of_mul_le_mul_left low positive
  have highf : f < 2 * fractionLimit := by
    rw [hf, Nat.pow_add, show 2 ^ 53 = 2 * fractionLimit from by decide] at high
    exact Nat.lt_of_mul_lt_mul_left high
  obtain ⟨g, rfl⟩ := Nat.exists_eq_add_of_le lowf
  have zero : 0 < fractionLimit := by decide
  have rest : g < fractionLimit := by omega
  have field : k * fractionLimit + (fractionLimit + g) = g + fractionLimit * (k + 1) := by ring
  rw [hf, Nat.mul_comm (2 ^ k), unitMagnitude_shift lowf highf, field, amountOf,
    if_neg (by rw [Nat.mul_succ]; omega), Nat.add_mul_mod_self_left, Nat.mod_eq_of_lt rest,
    Nat.add_mul_div_left _ _ zero, Nat.div_eq_of_lt rest, Nat.zero_add, Nat.add_sub_cancel]

/-! ### Rounding a number of units -/

/-- The double nearest to a number of units of a sign. -/
def ofUnits (negative : Bool) (n : Nat) : Binary64 :=
  ofMagnitude negative (min (unitMagnitude n) infinityMagnitude)

section OfUnits

variable (negative : Bool) (n : Nat)

/-- Units beyond the greatest double become an infinity. -/
theorem magnitude_ofUnits :
    (ofUnits negative n).magnitude = min (unitMagnitude n) infinityMagnitude :=
  magnitude_ofMagnitude negative (Nat.lt_of_le_of_lt (Nat.min_le_right _ _) infinityMagnitude_lt)

theorem negative_ofUnits : (ofUnits negative n).negative = negative :=
  negative_ofMagnitude negative (Nat.lt_of_le_of_lt (Nat.min_le_right _ _) infinityMagnitude_lt)

theorem isNaN_ofUnits : (ofUnits negative n).isNaN = false := by
  rw [isNaN, magnitude_ofUnits]
  exact decide_eq_false (Nat.not_lt_of_le (Nat.min_le_right _ _))

end OfUnits

/-- Each doubling of a number adds one to its logarithm. -/
theorem log2_mul_two_pow {n : Nat} (h : n ≠ 0) (k : Nat) : (n * 2 ^ k).log2 = n.log2 + k := by
  have positive : 0 < 2 ^ k := Nat.two_pow_pos k
  rw [Nat.log2_eq_iff (Nat.mul_ne_zero h positive.ne')]
  constructor
  · rw [Nat.pow_add]
    exact Nat.mul_le_mul_right _ (Nat.log2_self_le h)
  · rw [Nat.add_right_comm, Nat.pow_add]
    exact Nat.mul_lt_mul_of_pos_right Nat.lt_log2_self positive

/-- The logarithm of a quotient by a power of two. -/
theorem floorLog2_two_pow {n : Nat} (h : n ≠ 0) (a : Nat) :
    floorLog2 n (2 ^ a) = (n.log2 : Int) - a := by
  have within : 2 ^ a <<< ((n.log2 : Int) - a).toNat ≤ n <<< (-((n.log2 : Int) - a)).toNat := by
    rw [Nat.shiftLeft_eq, Nat.shiftLeft_eq, ← Nat.pow_add]
    calc 2 ^ (a + ((n.log2 : Int) - a).toNat)
        = 2 ^ (n.log2 + (-((n.log2 : Int) - a)).toNat) := by congr 1; omega
      _ = 2 ^ n.log2 * 2 ^ (-((n.log2 : Int) - a)).toNat := Nat.pow_add 2 _ _
      _ ≤ _ := Nat.mul_le_mul_right _ (Nat.log2_self_le h)
  simp only [floorLog2, Nat.log2_two_pow]
  exact if_pos within

/-- One is the power of two with this exponent, in units. -/
def unitExponent : Nat := 1074

/-- A quotient by a power of two that is a number of units is rounded as that number. -/
theorem ofRatio_two_pow (negative : Bool) (n : Nat) {a : Nat} (h : a ≤ unitExponent) :
    ofRatio negative n (2 ^ a) = ofUnits negative (n * 2 ^ (unitExponent - a)) := by
  have exponent : unitExponent = 1074 := rfl
  rcases Nat.eq_zero_or_pos n with rfl | positive
  · rw [ofRatio, if_pos rfl, ofUnits, Nat.zero_mul, unitMagnitude_of_lt (by decide), Nat.zero_min]
    rfl
  have nonzero : n ≠ 0 := positive.ne'
  rw [ofRatio, if_neg nonzero, ofUnits, unitMagnitude, log2_mul_two_pow nonzero,
    floorLog2_two_pow nonzero]
  generalize he : max ((n.log2 : Int) - a - 52) (-1074) = e
  have field : (e + 1074).toNat = n.log2 + (unitExponent - a) - 52 := by omega
  have nearest : nearestEven (n <<< (-e).toNat) (2 ^ a <<< e.toNat)
      = nearestEven (n * 2 ^ (unitExponent - a)) (2 ^ (n.log2 + (unitExponent - a) - 52)) := by
    rw [Nat.shiftLeft_eq, Nat.shiftLeft_eq]
    refine nearestEven_congr (Nat.mul_pos (Nat.two_pow_pos _) (Nat.two_pow_pos _))
      (Nat.two_pow_pos _) ?_
    simp only [Nat.mul_assoc, ← Nat.pow_add]
    congr 2
    omega
  simp only [field, nearest]

/-- The double nearest to a number of units with a sign. -/
def nearest (u : Int) : Binary64 := ofUnits (decide (u < 0)) u.natAbs

theorem nearest_zero : nearest 0 = zero false := by
  rw [nearest, Int.natAbs_zero, ofUnits, unitMagnitude_of_lt (by decide), Nat.zero_min]
  rfl

/-- No number of units is rounded to a NaN. -/
theorem isNaN_nearest (u : Int) : (nearest u).isNaN = false := isNaN_ofUnits _ _

/-- The double nearest to a number of units has the magnitude of these, with their sign. -/
theorem rank_nearest (u : Int) : (nearest u).rank
    = if u < 0 then -((min (unitMagnitude u.natAbs) infinityMagnitude : Nat) : Int)
      else ((min (unitMagnitude u.natAbs) infinityMagnitude : Nat) : Int) := by
  rw [nearest, rank, negative_ofUnits, magnitude_ofUnits]
  simp only [decide_eq_true_eq]

/-- Rounding keeps the order. -/
theorem rank_nearest_mono {u v : Int} (h : u ≤ v) : (nearest u).rank ≤ (nearest v).rank := by
  rw [rank_nearest, rank_nearest]
  have grows {n n' : Nat} (h : n ≤ n') : min (unitMagnitude n) infinityMagnitude
      ≤ min (unitMagnitude n') infinityMagnitude :=
    min_le_min_right _ (unitMagnitude_mono h)
  split_ifs
  · have := grows (show v.natAbs ≤ u.natAbs from by omega)
    omega
  · omega
  · omega
  · exact Int.ofNat_le.2 (grows (by omega))

/-- A positive factor keeps the sign. -/
theorem decide_mul_neg {k : Int} (positive : 0 < k) (n : Int) :
    decide (n * k < 0) = decide (n < 0) := by
  rw [decide_eq_decide]
  refine ⟨fun h => ?_, fun h => Int.mul_neg_of_neg_of_pos h positive⟩
  by_contra nonneg
  exact Int.not_lt.2 (Int.mul_nonneg (Int.not_lt.1 nonneg) positive.le) h

/-! ### Integers -/

/-- The number of units in one. -/
def unitsPerOne : Nat := 2 ^ unitExponent

theorem unitsPerOne_pos : 0 < unitsPerOne := Nat.two_pow_pos unitExponent

/-- The double of an integer is nearest to its units. -/
theorem ofInt_eq (i : Int) : ofInt i = nearest (i * unitsPerOne) := by
  have sign := decide_mul_neg (Int.natCast_pos.2 unitsPerOne_pos) i
  have rounds := ofRatio_two_pow (decide (i < 0)) i.natAbs (Nat.zero_le unitExponent)
  rw [Nat.sub_zero, Nat.pow_zero] at rounds
  rw [ofInt, rounds, nearest, sign, Int.natAbs_mul, Int.natAbs_natCast, unitsPerOne]

/-- The double of an integer has the sign of the integer. -/
theorem negative_ofInt (i : Int) : (ofInt i).negative = decide (i < 0) := by
  rw [ofInt_eq, nearest, negative_ofUnits, decide_mul_neg (Int.natCast_pos.2 unitsPerOne_pos)]

theorem isNaN_ofInt (i : Int) : (ofInt i).isNaN = false := by
  rw [ofInt_eq]
  exact isNaN_nearest _

/-- Greater integers have no lesser doubles. -/
theorem rank_ofInt_mono {i j : Int} (h : i ≤ j) : (ofInt i).rank ≤ (ofInt j).rank := by
  rw [ofInt_eq, ofInt_eq]
  exact rank_nearest_mono (Int.mul_le_mul_of_nonneg_right h (Int.natCast_nonneg _))

/-! ### Finite doubles -/

/-- The signed number of units of a finite double. -/
def units (x : Binary64) : Int :=
  if x.negative then -(amountOf x.magnitude : Int) else amountOf x.magnitude

/-- Units whose low bits are clear are held exactly. -/
theorem units_ofUnits (negative : Bool) {n : Nat} (exact : 2 ^ (n.log2 - 52) ∣ n)
    (finite : unitMagnitude n < infinityMagnitude) :
    (ofUnits negative n).units = if negative then -(n : Int) else n := by
  rw [units, negative_ofUnits, magnitude_ofUnits, Nat.min_eq_left finite.le,
    amountOf_unitMagnitude exact]

/-- Only the magnitude zero is of no units. -/
theorem amountOf_eq_zero {m : Nat} : amountOf m = 0 ↔ m = 0 := by
  have zero : unitMagnitude 0 = 0 := unitMagnitude_of_lt (by decide)
  constructor
  · intro h
    rw [← unitMagnitude_amountOf m, h, zero]
  · rintro rfl
    rfl

/-- A double that is no zero is the one nearest to its units. -/
theorem nearest_units {x : Binary64} (finite : x.isFinite = true) (h : x.units ≠ 0) :
    nearest x.units = x := by
  have below : x.magnitude < infinityMagnitude := of_decide_eq_true finite
  have sign : decide (x.units < 0) = x.negative := by
    rw [units] at h ⊢
    cases x.negative <;> simp at h ⊢
    omega
  have amount : x.units.natAbs = amountOf x.magnitude := by
    rw [units]
    split <;> omega
  rw [nearest, sign, amount, ofUnits, unitMagnitude_amountOf, Nat.min_eq_left below.le,
    ofMagnitude_eta]

theorem units_eq_zero {x : Binary64} : x.units = 0 ↔ x.magnitude = 0 := by
  rw [units, ← amountOf_eq_zero]
  split <;> omega

/-- The significand counts a power of two that is a number of units. -/
theorem signedSignificand_mul (x : Binary64) :
    x.signedSignificand * 2 ^ (x.exponent + unitExponent).toNat = x.units := by
  have exponent : unitExponent = 1074 := rfl
  have shift : (x.exponent + unitExponent).toNat = x.magnitude / fractionLimit - 1 := by
    rw [Binary64.exponent]
    omega
  have amount : x.significand * 2 ^ (x.magnitude / fractionLimit - 1) = amountOf x.magnitude := by
    rw [significand, amountOf]
    split
    next h => rw [Nat.div_eq_of_lt h, Nat.pow_zero, Nat.mul_one]
    next => rfl
  rw [shift, signedSignificand, units, ← amount]
  split <;> push_cast <;> ring

theorem le_exponent (x : Binary64) : -(unitExponent : Int) ≤ x.exponent := by
  have exponent : unitExponent = 1074 := rfl
  rw [Binary64.exponent]
  omega

/-- A power of two that is a number of units counts units. -/
theorem ofDyadic_eq (negative : Bool) (n : Nat) {e : Int} (h : -(unitExponent : Int) ≤ e) :
    ofDyadic negative n e = ofUnits negative (n * 2 ^ (e + unitExponent).toNat) := by
  have within : (-e).toNat ≤ unitExponent := by omega
  have exponents : e.toNat + (unitExponent - (-e).toNat) = (e + unitExponent).toNat := by omega
  rw [ofDyadic, Nat.one_shiftLeft, ofRatio_two_pow _ _ within, Nat.shiftLeft_eq, Nat.mul_assoc,
    ← Nat.pow_add, exponents]

/-- What is finite is a number. -/
theorem isNaN_of_isFinite {x : Binary64} (h : x.isFinite = true) : x.isNaN = false :=
  decide_eq_false (Nat.not_lt_of_lt (of_decide_eq_true h))

/-- The sum of two finite doubles is nearest to the sum of their units. -/
theorem add_eq {x y : Binary64} (hx : x.isFinite = true) (hy : y.isFinite = true) :
    x.add y = if x.units + y.units = 0 then zero (x.negative && y.negative)
      else nearest (x.units + y.units) := by
  simp only [add, isNaN_of_isFinite hx, isNaN_of_isFinite hy, hx, hy, Bool.or_self, Bool.not_true,
    Bool.false_eq_true, if_false]
  generalize he : min x.exponent y.exponent = e
  have low : -(unitExponent : Int) ≤ e := he ▸ Int.le_min.2 ⟨x.le_exponent, y.le_exponent⟩
  have positive : (0 : Int) < 2 ^ (e + unitExponent).toNat := Int.pow_pos (by decide)
  -- a shifted significand counts units at the common exponent
  have shifted {z : Binary64} (hz : e ≤ z.exponent) :
      z.signedSignificand <<< (z.exponent - e).toNat * 2 ^ (e + unitExponent).toNat = z.units := by
    rw [Int.shiftLeft_eq, Int.mul_assoc, ← Int.pow_add, ← z.signedSignificand_mul]
    congr 2
    omega
  generalize hsum : x.signedSignificand <<< (x.exponent - e).toNat
    + y.signedSignificand <<< (y.exponent - e).toNat = sum
  have total : sum * 2 ^ (e + unitExponent).toNat = x.units + y.units := by
    rw [← hsum, Int.add_mul, shifted (he ▸ Int.min_le_left _ _),
      shifted (he ▸ Int.min_le_right _ _)]
  rw [← total]
  by_cases none : sum = 0
  · rw [if_pos none, if_pos (by rw [none, Int.zero_mul])]
  · rw [if_neg none, if_neg (Int.mul_ne_zero none positive.ne'), ofDyadic_eq _ _ low, nearest,
      decide_mul_neg positive, Int.natAbs_mul, Int.natAbs_pow]
    rfl

/-! ### Zeros and NaNs in sums -/

/-- Doubles that are one key are equal, or both are no numbers, or both are zeros. -/
theorem same_cases {x y : Binary64} (h : x.same y = true) :
    x = y ∨ x.isNaN = true ∧ y.isNaN = true ∨ x.magnitude = 0 ∧ y.magnitude = 0 := by
  rw [same] at h
  cases hx : x.isNaN <;> cases hy : y.isNaN <;> rw [hx, hy] at h
  · -- numbers of one rank differ at most in the sign of zero
    have ranks : x.rank = y.rank := by simpa using h
    rw [rank, rank] at ranks
    by_cases zero : x.magnitude = 0
    · refine .inr (.inr ⟨zero, ?_⟩)
      split at ranks <;> split at ranks <;> omega
    · refine .inl ?_
      have signs : x.negative = y.negative := by
        cases hn : x.negative <;> cases hm : y.negative <;> rw [hn, hm] at ranks <;>
          simp at ranks ⊢ <;> omega
      have magnitudes : x.magnitude = y.magnitude := by
        rw [signs] at ranks
        split at ranks <;> omega
      rw [← ofMagnitude_eta x, ← ofMagnitude_eta y, signs, magnitudes]
  · cases h
  · cases h
  · exact .inr (.inl ⟨rfl, rfl⟩)

/-- Both zeros are one key. -/
theorem same_of_magnitude_zero {x y : Binary64} (hx : x.magnitude = 0) (hy : y.magnitude = 0) :
    x.same y = true := by
  have numbers : x.isNaN = false ∧ y.isNaN = false := by
    rw [isNaN, isNaN, hx, hy]
    exact ⟨rfl, rfl⟩
  rw [same, numbers.1, numbers.2, rank, rank, hx, hy]
  cases x.negative <;> cases y.negative <;> rfl

theorem isNaN_nan : nan.isNaN = true := by decide

theorem magnitude_zero (negative : Bool) : (zero negative).magnitude = 0 :=
  magnitude_ofMagnitude negative (by decide)

theorem isFinite_of_magnitude_zero {x : Binary64} (h : x.magnitude = 0) : x.isFinite = true := by
  rw [isFinite, h]
  rfl

/-- A finite double counts for nothing beside an infinity. -/
theorem add_of_not_isFinite {x y : Binary64} (hx : x.isFinite = true) (hy : y.isFinite = false) :
    x.add y = if y.isNaN then nan else y := by
  simp only [add, isNaN_of_isFinite hx, hx, hy, Bool.false_or, Bool.not_true, Bool.not_false,
    Bool.false_eq_true, if_true, if_false]

/-- What is one key before a sum is one key after it. -/
theorem same_add {x x' : Binary64} (h : x.same x' = true) (y : Binary64) :
    (x.add y).same (x'.add y) = true := by
  rcases same_cases h with rfl | ⟨hx, hx'⟩ | ⟨hx, hx'⟩
  · exact same_refl _
  · rw [add, add, hx, hx', Bool.true_or, if_pos rfl, if_pos rfl]
    exact same_refl nan
  · have finite := isFinite_of_magnitude_zero hx
    have finite' := isFinite_of_magnitude_zero hx'
    cases hy : y.isFinite with
    | true =>
      rw [add_eq finite hy, add_eq finite' hy, units_eq_zero.2 hx, units_eq_zero.2 hx',
        Int.zero_add]
      split
      · exact same_of_magnitude_zero (magnitude_zero _) (magnitude_zero _)
      · exact same_refl _
    | false =>
      rw [add_of_not_isFinite finite hy, add_of_not_isFinite finite' hy]
      exact same_refl _

/-- A sum that starts from zero starts with its first double. -/
theorem same_zero_add (x : Binary64) : ((zero false).add x).same x = true := by
  have start := isFinite_of_magnitude_zero (magnitude_zero false)
  cases hx : x.isFinite with
  | true =>
    rw [add_eq start hx, units_eq_zero.2 (magnitude_zero false), Int.zero_add]
    split
    next h => exact same_of_magnitude_zero (magnitude_zero _) (units_eq_zero.1 h)
    next h =>
      rw [nearest_units hx h]
      exact same_refl _
  | false =>
    rw [add_of_not_isFinite start hx]
    split
    next h =>
      rw [same, isNaN_nan, h]
      rfl
    next => exact same_refl _

/-! ### Sums of integers -/

section Integers

variable {n : Nat} (h : n ≤ 2 * fractionLimit) (k : Nat)
include h

/-- Each doubling adds at most one binade to the magnitude. -/
theorem unitMagnitude_mul_two_pow :
    unitMagnitude (n * 2 ^ k) ≤ (k + 1) * fractionLimit + fractionLimit := by
  have bound : n * 2 ^ k ≤ fractionLimit * 2 ^ (k + 1) := by
    rw [Nat.pow_succ', ← Nat.mul_assoc, Nat.mul_comm fractionLimit]
    exact Nat.mul_le_mul_right _ h
  exact (unitMagnitude_mono bound).trans_eq
    (unitMagnitude_shift (Nat.le_refl _) (by decide) _)

/-- A number of 53 bits, or the next one, has no bits below the significand. -/
theorem two_pow_dvd : 2 ^ ((n * 2 ^ k).log2 - 52) ∣ n * 2 ^ k := by
  rcases Nat.eq_zero_or_pos n with rfl | positive
  · rw [Nat.zero_mul]
    exact Nat.dvd_zero _
  rw [log2_mul_two_pow positive.ne']
  rcases Nat.lt_or_eq_of_le h with lt | rfl
  · have log : n.log2 < 53 := (Nat.log2_lt positive.ne').2 lt
    exact Nat.dvd_mul_left_of_dvd (Nat.pow_dvd_pow 2 (by omega)) n
  · have log : (2 * fractionLimit).log2 = 53 := by decide
    have next : 2 * fractionLimit = 2 ^ 53 := by decide
    rw [log, next, ← Nat.pow_add]
    exact Nat.pow_dvd_pow 2 (by omega)

end Integers

/-- Integers up to `2 ^ 53` are doubles. -/
theorem units_ofInt {i : Int} (h : i.natAbs ≤ 2 * fractionLimit) :
    (ofInt i).units = i * unitsPerOne ∧ (ofInt i).isFinite = true := by
  have amount : (i * unitsPerOne).natAbs = i.natAbs * 2 ^ unitExponent := by
    rw [Int.natAbs_mul, Int.natAbs_natCast, unitsPerOne]
  have finite : unitMagnitude (i.natAbs * 2 ^ unitExponent) < infinityMagnitude :=
    Nat.lt_of_le_of_lt (unitMagnitude_mul_two_pow h _) (by decide)
  rw [ofInt_eq]
  refine ⟨?_, ?_⟩
  · rw [nearest, amount, units_ofUnits _ (two_pow_dvd h _) finite, ← amount]
    simp only [decide_eq_true_eq]
    split <;> omega
  · rw [isFinite, nearest, amount, magnitude_ofUnits, Nat.min_eq_left finite.le]
    exact decide_eq_true finite

/-- Their doubles are as many as they are. -/
theorem eq_of_rank_ofInt {i j : Int} (hi : i.natAbs ≤ 2 * fractionLimit)
    (hj : j.natAbs ≤ 2 * fractionLimit) (h : (ofInt i).rank = (ofInt j).rank) : i = j := by
  have one : (unitsPerOne : Int) ≠ 0 := (Int.natCast_pos.2 unitsPerOne_pos).ne'
  have key : (ofInt i).same (ofInt j) = true := by
    rw [same, isNaN_ofInt, isNaN_ofInt, h]
    exact beq_self_eq_true _
  have units : (ofInt i).units = (ofInt j).units := by
    rcases same_cases key with eq | ⟨nan, -⟩ | ⟨zero, zero'⟩
    · rw [eq]
    · rw [isNaN_ofInt] at nan
      cases nan
    · rw [units_eq_zero.2 zero, units_eq_zero.2 zero']
  rw [(units_ofInt hi).1, (units_ofInt hj).1] at units
  exact Int.eq_of_mul_eq_mul_right one units

/-- They are added as the integers are. -/
theorem add_ofInt {i j : Int} (hi : i.natAbs ≤ 2 * fractionLimit)
    (hj : j.natAbs ≤ 2 * fractionLimit) : (ofInt i).add (ofInt j) = ofInt (i + j) := by
  obtain ⟨ui, fi⟩ := units_ofInt hi
  obtain ⟨uj, fj⟩ := units_ofInt hj
  rw [add_eq fi fj, ui, uj, ← Int.add_mul, ofInt_eq (i + j)]
  split
  next none =>
    -- not both integers are negative, so that the zero is none either
    have opposite : i + j = 0 :=
      (Int.mul_eq_zero.1 none).resolve_right (Int.natCast_pos.2 unitsPerOne_pos).ne'
    have sign : ((ofInt i).negative && (ofInt j).negative) = false := by
      rw [negative_ofInt, negative_ofInt, ← Bool.decide_and]
      exact decide_eq_false (by omega)
    rw [none, sign, nearest_zero]
  next => rfl

end Binary64

end DataGrid
