import DataGrid.Proofs.Tally
import DataGrid.Proofs.Value.Ordering
import Mathlib.Algebra.Order.BigOperators.Group.List
import Mathlib.Algebra.Order.Group.Nat

/-!
# Aggregates of aggregates

Values are given in parts, up to their order. The aggregate of all values is an aggregate of those
of the parts:

* a sum is the sum of the sums (`sumOver_parts`), as long as these are integers of a word;
* a count is the sum of the counts (`finish_remoteCount`);
* an average is the quotient of a sum of sums and a sum of counts (`finish_remoteAvg`);
* the least and the greatest value are those of the least and the greatest values (`bestOf_parts`).
-/

namespace DataGrid

open Value (ints IsCount)

namespace Tally

/-! ### Sums -/

/-- The exact sum of the integers among values. -/
def total (values : List Value) : Int := ((ints values).map Int64.toInt).sum

/-- The sum of the integers among values, a null if there are none. -/
def sumOver (values : List Value) : Value :=
  if (ints values).isEmpty then .null else Sum.ofInt (total values)

/-- A sum over values does not depend on counts. -/
theorem finish_after_sum (values counts : List Value) :
    (after .sum values counts).finish = sumOver values := by
  rw [after, finish, sumOver, total]
  cases ints values with
  | nil => rfl
  | cons i is => simp [RunningSum.ofInts, RunningSum.value]

/-- Integers are averaged exactly; without integers there has to be no count either. -/
theorem divide_ofInts {is : List Int64} {n : Nat} (none : is = [] → n = 0) :
    (RunningSum.ofInts is).divide n = Sum.averageOfInt (is.map Int64.toInt).sum n := by
  cases is with
  | nil => simp [RunningSum.ofInts, RunningSum.divide, Sum.averageOfInt, none rfl]
  | cons i is => rfl

/-- An average is the sum of the integers shared among them. -/
theorem finish_after_avg (values counts : List Value) :
    (after .avg values counts).finish = Sum.averageOfInt (total values) (ints values).length := by
  rw [after, finish, total]
  exact divide_ofInts fun none => by rw [none]; rfl

theorem ints_append (vs ws : List Value) : ints (vs ++ ws) = ints vs ++ ints ws :=
  List.filterMap_append

theorem ints_cons (v : Value) (vs : List Value) : ints (v :: vs) = ints [v] ++ ints vs :=
  ints_append [v] vs

theorem total_append (vs ws : List Value) : total (vs ++ ws) = total vs + total ws := by
  rw [total, ints_append, List.map_append, List.sum_append]
  rfl

/-- A total does not hang on the order. -/
theorem total_perm {vs ws : List Value} (h : vs.Perm ws) : total vs = total ws :=
  ((h.filterMap _).map _).sum_eq

/-- The sum of a part counts as its values do, if a word holds it. -/
theorem ints_sumOver {values : List Value} (h : Integer.Fits (total values)) :
    ints [sumOver values]
      = if (ints values).isEmpty then [] else [Int64.ofInt (total values)] := by
  rw [sumOver]
  split
  · rfl
  · rw [Sum.ofInt, Integer.narrow?, if_pos h]
    rfl

/-- A sum that stays within a word loses nothing. -/
theorem total_sumOver {values : List Value} (h : Integer.Fits (total values)) :
    total [sumOver values] = total values := by
  rw [total, ints_sumOver h]
  split
  next none => simp [total, List.isEmpty_iff.1 none]
  next => simp [Integer.toInt_ofInt_of_fits h]

theorem isEmpty_ints_sumOver {values : List Value} (h : Integer.Fits (total values)) :
    (ints [sumOver values]).isEmpty = (ints values).isEmpty := by
  rw [ints_sumOver h]
  split <;> simp_all

variable {values : List Value} {parts : List (List Value)}

/-- The sums of parts have the sum of all. -/
theorem total_parts (fits : ∀ p ∈ parts, Integer.Fits (total p)) :
    total (parts.map sumOver) = total parts.flatten := by
  induction parts with
  | nil => rfl
  | cons p parts ih =>
    obtain ⟨hp, hparts⟩ := List.forall_mem_cons.1 fits
    rw [List.map_cons, List.flatten_cons, total_append, ← ih hparts, ← total_sumOver hp,
      ← total_append]
    rfl

/-- Parts have no sums exactly if there are no integers in them. -/
theorem isEmpty_ints_parts (fits : ∀ p ∈ parts, Integer.Fits (total p)) :
    (ints (parts.map sumOver)).isEmpty = (ints parts.flatten).isEmpty := by
  induction parts with
  | nil => rfl
  | cons p parts ih =>
    obtain ⟨hp, hparts⟩ := List.forall_mem_cons.1 fits
    have here := isEmpty_ints_sumOver hp
    have rest := ih hparts
    rw [Bool.eq_iff_iff, List.isEmpty_iff, List.isEmpty_iff] at here rest ⊢
    rw [List.map_cons, List.flatten_cons, ints_cons, ints_append, List.append_eq_nil_iff,
      List.append_eq_nil_iff, here, rest]

/-- A sum does not hang on the order, since it is made of the total. -/
theorem sumOver_perm {vs ws : List Value} (perm : vs.Perm ws) : sumOver vs = sumOver ws := by
  have length := (perm.filterMap Value.asInt?).length_eq
  have empty : (ints vs).isEmpty = (ints ws).isEmpty := by
    rw [Bool.eq_iff_iff, List.isEmpty_iff_length_eq_zero, List.isEmpty_iff_length_eq_zero, ints,
      ints, length]
  rw [sumOver, sumOver, empty, total_perm perm]

/-- The sum of the sums is the sum. -/
theorem sumOver_parts (perm : parts.flatten.Perm values)
    (fits : ∀ p ∈ parts, Integer.Fits (total p)) :
    sumOver (parts.map sumOver) = sumOver values := by
  rw [← sumOver_perm perm, sumOver, sumOver, isEmpty_ints_parts fits, total_parts fits]

/-! ### Counts -/

/-- The value of a number. -/
def ofLength (n : Nat) : Value := .int (Int64.ofInt n)

/-- Adding up counts that are not negative only climbs, so that it is kept within a word once. -/
theorem foldl_addCounts_of_nonneg {is : List Int64} (low : ∀ i ∈ is, 0 ≤ i.toInt) (a : Int64) :
    is.foldl addCounts a = Integer.saturate (a.toInt + (is.map Int64.toInt).sum) := by
  induction is generalizing a with
  | nil =>
    rw [List.foldl_nil, List.map_nil, List.sum_nil, Int.add_zero,
      Integer.saturate_of_fits (Integer.fits_toInt a), Int64.ofInt_toInt]
  | cons i is ih =>
    obtain ⟨hi, low⟩ := List.forall_mem_cons.1 low
    have climbs : 0 ≤ (is.map Int64.toInt).sum := List.sum_nonneg (by simpa using low)
    have start := (Integer.fits_toInt a).1
    rw [List.foldl_cons, ih low, List.map_cons, List.sum_cons, addCounts, Integer.toInt_saturate,
      Integer.saturate, Integer.saturate]
    congr 1
    simp only [Integer.least, Integer.greatest] at start ⊢
    omega

/-- Counts that stay within a word are added without saturating. -/
theorem foldl_addCounts {ns : List Nat} (h : Integer.Fits (ns.sum : Int)) :
    ((ints (ns.map ofLength)).foldl addCounts 0).toInt = ns.sum := by
  have fits : ∀ n ∈ ns, Integer.Fits (n : Int) := fun n hn =>
    ⟨Int.le_trans (by decide) (Int.natCast_nonneg n),
      Int.le_trans (Int.ofNat_le.2 (List.le_sum_of_mem hn)) h.2⟩
  have words : ints (ns.map ofLength) = ns.map fun n : Nat => Int64.ofInt n := by
    simp [ints, ofLength, Value.asInt?, Function.comp_def]
  have numbers : (ns.map fun n : Nat => Int64.ofInt n).map Int64.toInt
      = ns.map (Nat.castAddMonoidHom Int) := by
    rw [List.map_map]
    exact List.map_congr_left fun n hn => Integer.toInt_ofInt_of_fits (fits n hn)
  have low : ∀ i ∈ ns.map fun n : Nat => Int64.ofInt n, 0 ≤ i.toInt := by
    intro i hi
    obtain ⟨n, hn, rfl⟩ := List.mem_map.1 hi
    rw [Integer.toInt_ofInt_of_fits (fits n hn)]
    exact Int.natCast_nonneg n
  rw [words, foldl_addCounts_of_nonneg low, numbers, ← map_list_sum, Int64.toInt_zero,
    Int.zero_add]
  exact (congrArg Int64.toInt (Integer.saturate_of_fits h)).trans (Integer.toInt_ofInt_of_fits h)

/-- The counts of parts add up to the count of all. -/
theorem finish_remoteCount {ns : List Nat} (h : Integer.Fits (ns.sum : Int)) (counts : List Value) :
    (after .remoteCount (ns.map ofLength) counts).finish = ofLength ns.sum := by
  rw [after, finish, ofLength, ← foldl_addCounts h, Int64.ofInt_toInt]

/-- The number of integers in all parts is that in all values. -/
theorem sum_length_ints (perm : parts.flatten.Perm values) :
    (parts.map fun p => (ints p).length).sum = (ints values).length := by
  have flat : (parts.map fun p => (ints p).length).sum = (ints parts.flatten).length := by
    clear perm
    induction parts with
    | nil => rfl
    | cons p parts ih =>
      rw [List.map_cons, List.sum_cons, ih, List.flatten_cons, ints_append, List.length_append]
  rw [flat]
  exact (perm.filterMap Value.asInt?).length_eq

/-- The average is the sum of the sums over the sum of the counts. -/
theorem finish_remoteAvg (perm : parts.flatten.Perm values)
    (fits : ∀ p ∈ parts, Integer.Fits (total p)) (length : Integer.Fits (values.length : Int))
    (counts : List Value) :
    (after .remoteAvg (parts.map sumOver) (parts.map fun p => ofLength (ints p).length)).finish
      = (after .avg values counts).finish := by
  have fewer : (ints values).length ≤ values.length := List.length_filterMap_le _ _
  have counted : ((ints (parts.map fun p => ofLength (ints p).length)).foldl addCounts 0).toInt
      = (ints values).length := by
    have sum := foldl_addCounts (by
      rw [sum_length_ints perm]
      exact ⟨by simp only [Integer.least]; omega, by have := length.2; omega⟩)
    rwa [sum_length_ints perm, List.map_map] at sum
  rw [finish_after_avg, after, finish, counted, Int.toNat_natCast, divide_ofInts]
  · exact congrArg (Sum.averageOfInt · _) ((total_parts fits).trans (total_perm perm))
  · intro none
    have empty := isEmpty_ints_parts fits
    rw [none, List.isEmpty_nil, eq_comm, List.isEmpty_iff] at empty
    rw [← sum_length_ints perm, sum_length_ints (.refl _), empty, List.length_nil]

/-! ### Extremes -/

/-- The value that comes out as wanted against the others, the first of several; a null if there is
none. -/
def bestOf (wanted : Ordering) (values : List Value) : Value :=
  (values.foldl (keepBetter wanted) none).getD .null

theorem finish_after_min (values counts : List Value) :
    (after .min values counts).finish = bestOf .lt values := rfl

theorem finish_after_max (values counts : List Value) :
    (after .max values counts).finish = bestOf .gt values := rfl

/-- A value that no other beats, or a null among nulls. -/
structure Best (wanted : Ordering) (values : List Value) (v : Value) : Prop where
  /-- it is one of the values -/
  mem : v ≠ .null → v ∈ values
  /-- it is a null only if all are -/
  none : v = .null → ∀ w ∈ values, w = .null
  /-- no value beats it -/
  unbeaten : ∀ w ∈ values, w ≠ .null → v ≠ .null → w.order v ≠ wanted

/-- Whether a kind of outcome tells the lesser from the greater. -/
def Strict (wanted : Ordering) : Prop := wanted = .lt ∨ wanted = .gt

variable {wanted : Ordering}

/-- A strict order of exact values is transitive, whichever extreme is wanted. -/
theorem order_trans_wanted (strict : Strict wanted) {u v w : Value} (hu : u.isExact = true)
    (hv : v.isExact = true) (hw : w.isExact = true) (huv : u.order v = wanted)
    (hvw : v.order w = wanted) : u.order w = wanted := by
  rcases strict with rfl | rfl
  · exact Value.order_orders.lt_trans hu hv hw huv hvw
  · have turned := Value.order_orders.turned.lt_trans hu hv hw (by rw [huv]; rfl) (by rw [hvw]; rfl)
    rwa [Ordering.swap_eq_lt] at turned

/-- What does not beat a value that does not beat another does not beat that one. -/
theorem order_trans_ne (strict : Strict wanted) {u v w : Value} (hu : u.isExact = true)
    (hv : v.isExact = true) (hw : w.isExact = true) (huv : u.order v ≠ wanted)
    (hvw : v.order w ≠ wanted) : u.order w ≠ wanted := by
  intro beats
  by_cases same : v.order u = wanted
  · exact hvw (order_trans_wanted strict hv hu hw same beats)
  · -- neither of the two beats the other, so they are one value
    have level : u = v := by
      rw [Value.order_orders.swap hv hu] at same
      refine Value.order_orders.eq_of hu hv ?_
      rcases strict with rfl | rfl <;> cases h : u.order v <;> simp [h] at huv same ⊢
    exact hvw (level ▸ beats)

/-- Only one exact value is best. -/
theorem Best.unique (strict : Strict wanted) (exact : ∀ v ∈ values, v.isExact = true)
    {v w : Value} (hv : Best wanted values v) (hw : Best wanted values w) : v = w := by
  by_cases hnull : v = .null
  · by_contra hne
    exact hne (hnull.trans (hv.none hnull w (hw.mem fun h => hne (hnull.trans h.symm))).symm)
  · have hnull' : w ≠ .null := fun h => hnull (hw.none h v (hv.mem hnull))
    have first := hw.unbeaten v (hv.mem hnull) hnull hnull'
    have second := hv.unbeaten w (hw.mem hnull') hnull' hnull
    have hv := exact v (hv.mem hnull)
    have hw := exact w (hw.mem hnull')
    rw [Value.order_orders.swap hw hv] at second
    refine Value.order_orders.eq_of hv hw ?_
    rcases strict with rfl | rfl <;> cases h : v.order w <;> simp [h] at first second ⊢

/-- Nothing is more extreme than itself. -/
theorem order_self_ne (strict : Strict wanted) {v : Value} (hv : v.isExact = true) :
    v.order v ≠ wanted := by
  rw [Value.order_orders.refl hv]
  rcases strict with rfl | rfl <;> exact fun h => nomatch h

/-- A null changes nothing. -/
theorem Best.concat_null {u : Value} (best : Best wanted values u) :
    Best wanted (values ++ [.null]) u := by
  refine ⟨fun h => List.mem_append_left _ (best.mem h), fun h w hw => ?_, fun w hw h => ?_⟩
  · rcases List.mem_append.1 hw with hw | hw
    · exact best.none h w hw
    · exact List.mem_singleton.1 hw
  · rcases List.mem_append.1 hw with hw | hw
    · exact best.unbeaten w hw h
    · exact absurd (List.mem_singleton.1 hw) h

/-- A value that is not better changes nothing. -/
theorem Best.concat_beaten {u v : Value} (best : Best wanted values u) (hu : u ≠ .null)
    (beaten : v.order u ≠ wanted) : Best wanted (values ++ [v]) u := by
  refine ⟨fun _ => List.mem_append_left _ (best.mem hu), fun h => absurd h hu, fun w hw hw' _ => ?_⟩
  rcases List.mem_append.1 hw with hw | hw
  · exact best.unbeaten w hw hw' hu
  · rw [List.mem_singleton.1 hw]
    exact beaten

/-- A value that none of the others beats is the best. -/
theorem Best.concat_unbeaten (strict : Strict wanted) {v : Value} (hv : v.isExact = true)
    (hnull : v ≠ .null) (h : ∀ w ∈ values, w ≠ .null → w.order v ≠ wanted) :
    Best wanted (values ++ [v]) v := by
  refine ⟨fun _ => by simp, fun h => absurd h hnull, fun w hw hw' _ => ?_⟩
  rcases List.mem_append.1 hw with hw | hw
  · exact h w hw hw'
  · rw [List.mem_singleton.1 hw]
    exact order_self_ne strict hv

/-- The best value so far and one more make the best value. -/
theorem Best.keepBetter (strict : Strict wanted) (exact : ∀ v ∈ values, v.isExact = true)
    {current : Option Value} (some : current ≠ some .null)
    (best : Best wanted values (current.getD .null)) {v : Value} (hv : v.isExact = true) :
    keepBetter wanted current v ≠ .some .null
      ∧ Best wanted (values ++ [v]) ((keepBetter wanted current v).getD .null) := by
  by_cases hnull : v = .null
  · subst hnull
    exact ⟨some, best.concat_null⟩
  -- from here on the new value may replace the best one
  have kept : v.isNull = false := by cases v <;> first | rfl | exact absurd rfl hnull
  cases current with
  | none =>
    rw [Tally.keepBetter, kept]
    refine ⟨by simpa using hnull, Best.concat_unbeaten strict hv hnull fun w hw hw' => ?_⟩
    exact absurd (best.none rfl w hw) hw'
  | some u =>
    have hu : u ≠ .null := fun h => some (h ▸ rfl)
    rw [Tally.keepBetter, kept]
    by_cases beats : v.order u = wanted
    · simp only [Bool.false_eq_true, if_false, if_pos beats]
      refine ⟨by simpa using hnull, Best.concat_unbeaten strict hv hnull fun w hw hw' h => ?_⟩
      -- what beats the new best value would beat the old one
      exact best.unbeaten w hw hw' hu
        (order_trans_wanted strict (exact w hw) hv (exact u (best.mem hu)) h beats)
    · simp only [Bool.false_eq_true, if_false, if_neg beats]
      exact ⟨some, best.concat_beaten hu beats⟩

/-- The value that is kept is best among exact values. -/
theorem best_bestOf (strict : Strict wanted) (exact : ∀ v ∈ values, v.isExact = true) :
    Best wanted values (bestOf wanted values) := by
  have kept : values.foldl (Tally.keepBetter wanted) none ≠ some .null
      ∧ Best wanted values (bestOf wanted values) := by
    induction values using List.reverseRecOn with
    | nil => exact ⟨by simp, ⟨fun h => absurd rfl h, fun _ w hw => absurd hw List.not_mem_nil,
        fun w hw => absurd hw List.not_mem_nil⟩⟩
    | append_singleton values v ih =>
      obtain ⟨exact, hv⟩ := List.forall_mem_append.1 exact
      obtain ⟨some, best⟩ := ih exact
      have step := Best.keepBetter strict exact some best (hv v (List.mem_singleton_self v))
      rwa [bestOf, List.foldl_append, List.foldl_cons, List.foldl_nil]
  exact kept.2

/-- What is best does not hang on the order. -/
theorem Best.perm {values' : List Value} (h : values.Perm values') {v : Value}
    (hv : Best wanted values v) : Best wanted values' v :=
  ⟨fun h' => h.mem_iff.1 (hv.mem h'), fun h' w hw => hv.none h' w (h.mem_iff.2 hw),
    fun w hw => hv.unbeaten w (h.mem_iff.2 hw)⟩

/-- Nor does the value that is kept. -/
theorem bestOf_perm {values' : List Value} (strict : Strict wanted)
    (exact : ∀ v ∈ values', v.isExact = true) (perm : values.Perm values') :
    bestOf wanted values = bestOf wanted values' := by
  have best := best_bestOf strict fun v hv => exact v (perm.mem_iff.1 hv)
  exact (best.perm perm).unique strict exact (best_bestOf strict exact)

/-- The value that is kept is exact, since it is one of the values or null. -/
theorem isExact_bestOf (strict : Strict wanted) (exact : ∀ v ∈ values, v.isExact = true) :
    (bestOf wanted values).isExact = true := by
  by_cases h : bestOf wanted values = .null
  · rw [h]
    rfl
  · exact exact _ ((best_bestOf strict exact).mem h)

/-- The best of all values is the best of those of the parts. -/
theorem best_parts (strict : Strict wanted) (exact : ∀ v ∈ parts.flatten, v.isExact = true) :
    bestOf wanted (parts.map (bestOf wanted)) = bestOf wanted parts.flatten
      ∧ Best wanted (parts.map (bestOf wanted)) (bestOf wanted parts.flatten) := by
  have exact' : ∀ p ∈ parts, ∀ v ∈ p, v.isExact = true := fun p hp v hv =>
    exact v (List.mem_flatten.2 ⟨p, hp, hv⟩)
  have each : ∀ p ∈ parts, Best wanted p (bestOf wanted p) := fun p hp =>
    best_bestOf strict (exact' p hp)
  have exactBest : ∀ v ∈ parts.map (bestOf wanted), v.isExact = true := by
    intro v hv
    obtain ⟨p, hp, rfl⟩ := List.mem_map.1 hv
    exact isExact_bestOf strict (exact' p hp)
  have best := best_bestOf strict exactBest
  have overall : Best wanted parts.flatten (bestOf wanted (parts.map (bestOf wanted))) := by
    refine ⟨fun h => ?_, fun h w hw => ?_, fun w hw hw' h => ?_⟩
    · obtain ⟨p, hp, hbest⟩ := List.mem_map.1 (best.mem h)
      exact List.mem_flatten.2 ⟨p, hp, hbest ▸ (each p hp).mem (hbest.symm ▸ h)⟩
    · obtain ⟨p, hp, hw⟩ := List.mem_flatten.1 hw
      exact (each p hp).none (best.none h _ (List.mem_map_of_mem hp)) w hw
    · obtain ⟨p, hp, hw⟩ := List.mem_flatten.1 hw
      have local? : bestOf wanted p ≠ .null := fun h => hw' ((each p hp).none h w hw)
      have first := (each p hp).unbeaten w hw hw' local?
      have second := best.unbeaten _ (List.mem_map_of_mem hp) local? h
      exact order_trans_ne strict (exact' p hp w hw) (exactBest _ (List.mem_map_of_mem hp))
        (exactBest _ (best.mem h)) first second
  have same := overall.unique strict exact (best_bestOf strict exact)
  exact ⟨same, same ▸ best⟩

/-- What is the best of the best values of parts is the best of all values. -/
theorem best_parts_iff (strict : Strict wanted) (perm : parts.flatten.Perm values)
    (exact : ∀ v ∈ values, v.isExact = true) {v : Value} :
    Best wanted (parts.map (bestOf wanted)) v ↔ v = bestOf wanted values := by
  have exactParts : ∀ v ∈ parts.flatten, v.isExact = true := fun v hv =>
    exact v (perm.mem_iff.1 hv)
  have best := (best_parts strict exactParts).2
  rw [bestOf_perm strict exact perm] at best
  constructor
  · intro h
    refine h.unique strict (fun w hw => ?_) best
    obtain ⟨p, hp, rfl⟩ := List.mem_map.1 hw
    exact isExact_bestOf strict fun u hu => exactParts u (List.mem_flatten.2 ⟨p, hp, hu⟩)
  · rintro rfl
    exact best

/-- The best of the best values is the best. -/
theorem bestOf_parts (strict : Strict wanted) (perm : parts.flatten.Perm values)
    (exact : ∀ v ∈ values, v.isExact = true) :
    bestOf wanted (parts.map (bestOf wanted)) = bestOf wanted values := by
  rw [(best_parts strict fun v hv => exact v (perm.mem_iff.1 hv)).1, bestOf_perm strict exact perm]

end Tally

end DataGrid
