import DataGrid.Binary64.Basic

/-!
# Rounding to doubles and to integers

Every inexact result is the exact rational result rounded once, to nearest with ties to even.

* `ofRatio` rounds a quotient of naturals; `ofInt`, `add` and `div` are stated through it.
* `nearestEven` is the integer form of the same rule, and `roundToInt` applies it to a double.

The finite doubles of one sign, from zero up, have the magnitudes `0, 1, 2, …` in order, so a
significand `s` at exponent `e` has magnitude `(e + 1074) · 2 ^ 52 + s`, also where `s` has just
reached the next power of two. Rounding needs no case for that carry.
-/

namespace DataGrid

/-- The integer nearest to `num / den`, the even one of two that are equally near. -/
def nearestEven (num den : Nat) : Nat :=
  let q := num / den
  let r := num % den
  if 2 * r < den then q
  else if den < 2 * r then q + 1
  else if q % 2 = 0 then q else q + 1

namespace Binary64

/-- The integral part of the binary logarithm of `num / den`, both positive. -/
def floorLog2 (num den : Nat) : Int :=
  let k : Int := (num.log2 : Int) - den.log2
  if den <<< k.toNat ≤ num <<< (-k).toNat then k else k - 1

/-- The double nearest to `num / den` with the given sign; too large a quotient is infinite. -/
def ofRatio (negative : Bool) (num den : Nat) : Binary64 :=
  if num = 0 then zero negative
  else
    let e : Int := max (floorLog2 num den - 52) (-1074)
    let s := nearestEven (num <<< (-e).toNat) (den <<< e.toNat)
    ofMagnitude negative (min ((e + 1074).toNat * fractionLimit + s) infinityMagnitude)

/-- The double nearest to `±significand · 2 ^ exponent`. -/
def ofDyadic (negative : Bool) (significand : Nat) (exponent : Int) : Binary64 :=
  ofRatio negative (significand <<< exponent.toNat) (1 <<< (-exponent).toNat)

/-- The double nearest to an integer. -/
def ofInt (n : Int) : Binary64 := ofRatio (decide (n < 0)) n.natAbs 1

/-- The sum of two doubles. An exact zero is negative only if both operands are. -/
def add (x y : Binary64) : Binary64 :=
  if x.isNaN || y.isNaN then nan
  else if !x.isFinite then
    if !y.isFinite && x.negative != y.negative then nan else x
  else if !y.isFinite then y
  else
    let e := min x.exponent y.exponent
    let sum := x.signedSignificand <<< (x.exponent - e).toNat
      + y.signedSignificand <<< (y.exponent - e).toNat
    if sum = 0 then zero (x.negative && y.negative)
    else ofDyadic (decide (sum < 0)) sum.natAbs e

/-- The quotient of two doubles. -/
def div (x y : Binary64) : Binary64 :=
  let negative := x.negative != y.negative
  if x.isNaN || y.isNaN then nan
  else if !x.isFinite then
    if !y.isFinite then nan else infinity negative
  else if !y.isFinite then zero negative
  else if y.isZero then
    if x.isZero then nan else infinity negative
  else
    let e := x.exponent - y.exponent
    ofRatio negative (x.significand <<< e.toNat) (y.significand <<< (-e).toNat)

variable (x : Binary64)

/-- The integer nearest to a finite double, ties to even. -/
def roundToInt : Int :=
  let n := nearestEven (x.significand <<< x.exponent.toNat) (1 <<< (-x.exponent).toNat)
  if x.negative then -(n : Int) else n

/-- Whether a finite double is an integer. -/
def isIntegral : Bool :=
  x.isFinite && (x.significand <<< x.exponent.toNat) % (1 <<< (-x.exponent).toNat) == 0

/-! ## Small facts -/

theorem nearestEven_one (n : Nat) : nearestEven n 1 = n := by
  simp [nearestEven, Nat.mod_one]

end Binary64

end DataGrid
