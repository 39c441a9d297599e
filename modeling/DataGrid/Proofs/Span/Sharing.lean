import DataGrid.Proofs.TypedSum
import DataGrid.Rollup

/-!
# Averages of spans

A sum of spans is shared out among as many as were summed. The exact share is the quotient of its
nanoseconds, toward zero.

* A sum that fits into a word of nanoseconds is shared out exactly. A longer one is shared out in
  whole milliseconds, which gives the whole milliseconds of the exact share
  (`Span.share_of_not_fits`).
* So an average is exact if the sum fits or if its exact share has no part of a millisecond, and the
  average of copies of one span is that span under the same condition (`Span.average_exact_iff`).
-/

namespace DataGrid

namespace Span

/-! ### Shares -/

/-- Quotients toward zero by two naturals may be taken in either order. -/
theorem tdiv_tdiv_comm (n : Int) (a b : Nat) : (n.tdiv a).tdiv b = (n.tdiv b).tdiv a := by
  have natural (m : Nat) : ((m : Int).tdiv a).tdiv b = ((m : Int).tdiv b).tdiv a := by
    simp only [← Int.ofNat_tdiv, Nat.div_right_comm]
  obtain ⟨m, rfl | rfl⟩ := n.eq_nat_or_neg
  · exact natural m
  · simp only [Int.neg_tdiv, natural]

/-- A span beyond a word of nanoseconds is shared out in the whole milliseconds of its exact
share. -/
theorem share_of_not_fits {a : Span} (long : ¬ Integer.Fits a.nanos) (count : Nat) :
    a.share count = (a.nanos.tdiv count).tdiv milli * milli := by
  rw [share, if_neg long]
  exact congrArg (· * milli) (tdiv_tdiv_comm a.nanos 1000000 count)

theorem tdiv_mul_eq_iff (n : Int) : n.tdiv milli * milli = n ↔ milli ∣ n :=
  ⟨fun h => ⟨n.tdiv milli, by rw [Int.mul_comm, h]⟩, Int.tdiv_mul_cancel⟩

/-- What one of `count` parts of a sum is. -/
structure Averages (sum : Span) (count : Nat) (average : Span) : Prop where
  /-- a sum that fits into a word of nanoseconds is shared out exactly, toward zero -/
  fine : Integer.Fits sum.nanos → average.nanos = sum.nanos.tdiv count
  /-- a longer one down to the whole milliseconds of its exact share -/
  coarse : ¬ Integer.Fits sum.nanos →
    average.nanos = (sum.nanos.tdiv count).tdiv milli * milli
  /-- nothing is lost if there is no part of a millisecond to lose -/
  exact_iff : average.nanos = sum.nanos.tdiv count
    ↔ Integer.Fits sum.nanos ∨ milli ∣ sum.nanos.tdiv count

theorem averages_divide (sum : Span) (count : Nat) : Averages sum count (sum.divide count) := by
  by_cases fits : Integer.Fits sum.nanos
  · have exact : sum.share count = sum.nanos.tdiv count := if_pos fits
    exact ⟨fun _ => exact, fun long => absurd fits long, iff_of_true exact (.inl fits)⟩
  · have whole := share_of_not_fits fits count
    refine ⟨fun short => absurd short fits, fun _ => whole, ?_⟩
    rw [or_iff_right fits, ← tdiv_mul_eq_iff, ← whole]
    rfl

/-! ### Copies of one span -/

/-- Fewer copies stay in the range. -/
theorem inRange_copies {d : Int} {n k : Nat} (h : InRange (n * d)) (le : k ≤ n) :
    InRange (k * d) := by
  have shorter : ((k : Int) * d).natAbs ≤ ((n : Int) * d).natAbs := by
    rw [Int.natAbs_mul, Int.natAbs_mul]
    exact Nat.mul_le_mul_right _ le
  unfold InRange at *
  omega

theorem addSpans_eq {a d total : Span} (h : total.nanos = a.nanos + d.nanos) :
    Sum.addSpans a d = .ok total := by
  obtain ⟨nanos, inRange⟩ := total
  have h : nanos = a.nanos + d.nanos := h
  subst h
  rw [Sum.addSpans, add?, ofNanos?, dif_pos inRange]

/-- Any sum of spans that starts with the first and adds up the others comes to the total of the
copies. -/
theorem foldlM_copies {σ : Type} {add : σ → Value → Except ReadError σ} {start : σ}
    (state : Nat → Span → σ) {d : Span} (first : add start (.span d) = .ok (state 0 d))
    (next : ∀ n a, add (state n a) (.span d) = (Sum.addSpans a d).map (state (n + 1))) (n : Nat)
    {total : Span} (h : total.nanos = (n + 1 : Nat) * d.nanos) :
    (List.replicate (n + 1) (.span d)).foldlM add start = .ok (state n total) := by
  induction n generalizing total with
  | zero =>
    have one : total = d := by
      cases total
      cases d
      simp_all
    rw [one, List.replicate_one, List.foldlM_cons, first]
    rfl
  | succ n ih =>
    have before : InRange ((n + 1 : Nat) * d.nanos) :=
      inRange_copies (h ▸ total.inRange) (Nat.le_succ (n + 1))
    have total_eq : total.nanos = (n + 1 : Nat) * d.nanos + d.nanos := by
      rw [h]
      push_cast
      ring
    have shorter : (⟨_, before⟩ : Span).nanos = (n + 1 : Nat) * d.nanos := rfl
    rw [List.replicate_succ', List.foldlM_append, ih shorter]
    refine (bind_pure (add _ _)).trans ?_
    rw [next, addSpans_eq total_eq]
    rfl

/-- The state of an average with one more value. -/
def averageStep (t : Tally) (v : Value) : Except ReadError Tally := t.stepWith v (.ok .null)

theorem foldlM_averageStep_copies (n : Nat) {d total : Span}
    (h : total.nanos = (n + 1 : Nat) * d.nanos) :
    (List.replicate (n + 1) (.span d)).foldlM averageStep (Tally.start .avg)
      = .ok (.avg (.span total) (n + 1)) := by
  refine foldlM_copies (fun n a => Tally.avg (.span a) (n + 1)) rfl (fun n a => ?_) n h
  change (((Sum.addSpans a d).map RunningSum.span).map fun sum => Tally.avg sum (n + 1 + 1)) = _
  cases Sum.addSpans a d <;> rfl

/-- The average of a sum is its share. It is exact, toward zero, if the sum fits into a word of
nanoseconds or if the exact share is one of whole milliseconds. Copies of one span add up to a sum,
whose average is the span under the same condition. -/
theorem average_exact_iff (sum : Span) {count : Nat} (some : 0 < count)
    (word : count ≤ Sum.greatestCount) :
    ∃ average, (TypedSum.span sum).divide count = .span average
      ∧ (RunningSum.span sum).divide count = .span average ∧ Averages sum count average
      ∧ ∀ d : Span, sum.nanos = count * d.nanos →
        (List.replicate count (.span d)).foldlM TypedSum.add (.span zero) = .ok (.span sum)
        ∧ (∃ t, (List.replicate count (.span d)).foldlM averageStep (Tally.start .avg) = .ok t
          ∧ t.finish = .span average)
        ∧ (average = d ↔ Integer.Fits sum.nanos ∨ milli ∣ d.nanos) := by
  have shared : Sum.averageOfSpan sum count = .span (sum.divide count) := by
    rw [Sum.averageOfSpan, if_neg some.ne', Nat.min_eq_left word]
  refine ⟨sum.divide count, shared, shared, averages_divide sum count, fun d copies => ?_⟩
  obtain ⟨n, rfl⟩ : ∃ n, count = n + 1 := ⟨count - 1, by omega⟩
  refine ⟨?_, ⟨_, foldlM_averageStep_copies n copies, shared⟩, ?_⟩
  · refine foldlM_copies (fun _ a => TypedSum.span a) ?_ (fun _ _ => rfl) n copies
    rw [TypedSum.add, TypedSum.addSpans_zero]
    rfl
  · have exact : sum.nanos.tdiv (n + 1 : Nat) = d.nanos := by
      rw [copies, Int.mul_tdiv_cancel_left _ (by omega)]
    have same : sum.divide (n + 1) = d ↔ (sum.divide (n + 1)).nanos = d.nanos := by
      cases d
      simp [divide]
    rw [same, ← exact]
    exact (averages_divide sum (n + 1)).exact_iff

/-- Two spans of `2 ^ 62` nanoseconds add up to one nanosecond more than a word holds. -/
theorem average_exact_iff_two :
    let d : Span := ⟨4611686018427387904, by decide⟩
    let sum : Span := ⟨9223372036854775808, by decide⟩
    0 < 2 ∧ 2 ≤ Sum.greatestCount ∧ sum.nanos = (2 : Nat) * d.nanos
      ∧ ∃ average, (TypedSum.span sum).divide 2 = .span average ∧ average ≠ d := by
  intro d sum
  have copies : sum.nanos = (2 : Nat) * d.nanos := by decide
  obtain ⟨average, typed, -, -, same⟩ := average_exact_iff sum (by decide : 0 < 2) (by decide)
  refine ⟨by decide, by decide, copies, average, typed, fun eq => ?_⟩
  exact absurd ((same d copies).2.2.1 eq) (by decide)

/-- A single span of `2 ^ 63` nanoseconds is averaged to one that is shorter. -/
theorem average_of_one_shorter :
    let sum : Span := ⟨9223372036854775808, by decide⟩
    (RunningSum.empty.add (.span sum) = .ok (.span sum))
      ∧ (RunningSum.span sum).divide 1 = .span ⟨9223372036854000000, by decide⟩
      ∧ sum.nanos.tdiv 1 = 9223372036854775808 :=
  ⟨rfl, rfl, rfl⟩

end Span

end DataGrid
