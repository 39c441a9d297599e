/-!
# Doubles as bit patterns

A double is its 64-bit pattern, and everything about it is integer arithmetic on that pattern.

* `magnitude` is the pattern without its sign bit; it orders absolute values, infinity and the NaN
  patterns included.
* `significand` and `exponent` give a finite double as `±significand · 2 ^ exponent`.
* `rank` maps doubles that are numbers to integers and keeps their order, both zeros at `0`, so
  `compare?` is a comparison of integers.
-/

namespace DataGrid

/-- A double: one sign bit, eleven exponent bits and 52 fraction bits. -/
structure Binary64 where
  /-- the whole pattern, sign bit first -/
  bits : UInt64
  deriving DecidableEq

namespace Binary64

/-- The fraction field holds values below this. -/
def fractionLimit : Nat := 1 <<< 52

/-- The sign bit alone. -/
def signBit : Nat := 1 <<< 63

/-- The magnitude of an infinity; greater magnitudes are NaN patterns. -/
def infinityMagnitude : Nat := 2047 * fractionLimit

/-- The double with a given sign and magnitude. -/
def ofMagnitude (negative : Bool) (magnitude : Nat) : Binary64 :=
  ⟨UInt64.ofNat (magnitude + if negative then signBit else 0)⟩

/-- The zero of a sign. -/
def zero (negative : Bool) : Binary64 := ofMagnitude negative 0

/-- The infinity of a sign. -/
def infinity (negative : Bool) : Binary64 := ofMagnitude negative infinityMagnitude

/-- The NaN that operations produce. -/
def nan : Binary64 := ofMagnitude false (infinityMagnitude + 1 <<< 51)

variable (x y : Binary64)

/-- Whether the sign bit is set. -/
def negative : Bool := decide (signBit ≤ x.bits.toNat)

/-- The pattern without its sign bit. -/
def magnitude : Nat := x.bits.toNat % signBit

/-- Whether the pattern is no number. -/
def isNaN : Bool := decide (infinityMagnitude < x.magnitude)

/-- Whether the pattern is neither a NaN nor an infinity. -/
def isFinite : Bool := decide (x.magnitude < infinityMagnitude)

/-- Whether the pattern is one of the two zeros. -/
def isZero : Bool := x.magnitude == 0

/-- The integer whose multiple of a power of two a finite double is. -/
def significand : Nat :=
  if x.magnitude < fractionLimit then x.magnitude
  else fractionLimit + x.magnitude % fractionLimit

/-- The power of two that `significand` counts. -/
def exponent : Int := max 1 (x.magnitude / fractionLimit : Nat) - 1075

/-- The signed magnitude: it orders numbers as their values do and is `0` for both zeros. -/
def rank : Int := if x.negative then -(x.magnitude : Int) else x.magnitude

/-- The order of two doubles as numbers; a NaN has no place in it. -/
def compare? : Option Ordering :=
  if x.isNaN || y.isNaN then none else some (compare x.rank y.rank)

/-- Sameness as a key: all NaN patterns are one key, and so are the two zeros. -/
def same : Bool :=
  if x.isNaN || y.isNaN then x.isNaN && y.isNaN else x.rank == y.rank

/-- The signed integer that a finite double multiplies by its power of two. -/
def signedSignificand : Int := if x.negative then -(x.significand : Int) else x.significand

/-! ## Sameness is an equivalence -/

theorem same_refl : x.same x = true := by
  unfold same
  cases x.isNaN <;> simp

theorem same_comm : x.same y = y.same x := by
  unfold same
  cases x.isNaN <;> cases y.isNaN <;> simp [Bool.beq_comm]

theorem same_trans {x y z : Binary64} (hxy : x.same y = true) (hyz : y.same z = true) :
    x.same z = true := by
  unfold same at *
  cases hx : x.isNaN <;> cases hy : y.isNaN <;> cases hz : z.isNaN <;> simp_all

end Binary64

end DataGrid
