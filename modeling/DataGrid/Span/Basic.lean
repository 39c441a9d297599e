import DataGrid.Integer

/-!
# Spans of time

A `Span` is a signed number of nanoseconds, no longer than the milliseconds that a signed 64-bit
word counts.

* `Span.ofNanos?` builds one, and `Span.add?` adds two; both fail outside the range.
* `Span.divide` shares a span out, toward zero.
-/

namespace DataGrid

namespace Span

/-- The nanoseconds of a millisecond. -/
def milli : Int := 1000000

/-- The nanoseconds of the longest span. -/
def longest : Int := Integer.greatest * milli

/-- Whether a number of nanoseconds is in the range. -/
def InRange (nanos : Int) : Prop := -longest ≤ nanos ∧ nanos ≤ longest

instance (nanos : Int) : Decidable (InRange nanos) := inferInstanceAs (Decidable (_ ∧ _))

/-- The nanoseconds of a second. -/
def second : Int := 1000 * milli

/-- The nanoseconds of a minute. -/
def minute : Int := 60 * second

/-- The nanoseconds of an hour. -/
def hour : Int := 60 * minute

/-- The nanoseconds of a day. -/
def day : Int := 24 * hour

end Span

/-- A span of time. -/
structure Span where
  /-- its length in nanoseconds -/
  nanos : Int
  /-- the length is in the range -/
  inRange : Span.InRange nanos
  deriving DecidableEq

namespace Span

/-- The span of a number of nanoseconds. -/
def ofNanos? (nanos : Int) : Option Span := if h : InRange nanos then some ⟨nanos, h⟩ else none

/-- The empty span. -/
def zero : Span := ⟨0, by decide⟩

/-- The sum of two spans. -/
def add? (a b : Span) : Option Span := ofNanos? (a.nanos + b.nanos)

/-- The span the other way. -/
def neg (a : Span) : Span :=
  ⟨-a.nanos, by have h := a.inRange; unfold InRange at *; omega⟩

/-- The share of one of `count` equal parts, toward zero. A span whose nanoseconds do not fit into
a signed word is shared out in whole milliseconds. -/
def share (a : Span) (count : Nat) : Int :=
  if Integer.Fits a.nanos then a.nanos.tdiv count
  else (a.nanos.tdiv milli).tdiv count * milli

theorem natAbs_tdiv_le (n m : Int) : (n.tdiv m).natAbs ≤ n.natAbs := by
  rw [Int.natAbs_tdiv]
  exact Nat.div_le_self _ _

/-- A quotient is no longer than the span it is a share of. -/
theorem inRange_tdiv {n : Int} (h : InRange n) (m : Int) : InRange (n.tdiv m) := by
  have le := natAbs_tdiv_le n m
  unfold InRange at *
  omega

theorem natAbs_tdiv_mul_le (n m : Int) : (n.tdiv m * m).natAbs ≤ n.natAbs := by
  rw [Int.natAbs_mul, Int.natAbs_tdiv]
  exact Nat.div_mul_le_self _ _

theorem inRange_share (a : Span) (count : Nat) : InRange (a.share count) := by
  unfold share
  split
  · exact inRange_tdiv a.inRange _
  · have first := natAbs_tdiv_le (a.nanos.tdiv milli) count
    have whole := natAbs_tdiv_mul_le a.nanos milli
    have h := a.inRange
    have le : ((a.nanos.tdiv milli).tdiv count * milli).natAbs ≤ a.nanos.natAbs := by
      rw [Int.natAbs_mul] at *
      exact Nat.le_trans (Nat.mul_le_mul_right _ first) whole
    unfold InRange at *
    omega

/-- One of `count` equal parts of a span. -/
def divide (a : Span) (count : Nat) : Span := ⟨a.share count, inRange_share a count⟩

/-- The order by length. -/
def order (a b : Span) : Ordering := compare a.nanos b.nanos

end Span

end DataGrid
