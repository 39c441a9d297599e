import DataGrid.Proofs.Binary64.Integral
import DataGrid.Proofs.Filter.Literal
import DataGrid.Proofs.Grouping.Partition
import DataGrid.Proofs.Value.Blurring

/-!
# Keys that are grouped together and values that are equal

Rows are grouped by `Grouping.sameKey` and filtered by `Value.equal`. The one folds an integral
double onto its integer, below a limit; the other compares an integer and a double as doubles,
without a limit.

* `Value.groupKey_float_eq_int_iff`: what is folded onto an integer is what is level with it, below
  the limit.
* `Value.equal_eq_same`: values that are no doubles are equal if they are the same, whatever they
  hold.
* `Value.Parted a b` says that one of two values is an integer beyond the limit and the other the
  double nearest to it. Only such values are equal and yet not grouped together
  (`Grouping.sameKey_iff`).
* So records share a group exactly if the filters that the keys of the one equal those of the other
  hold, and no keys are parted (`Grouping.shared_iff_filtered`).
-/

namespace DataGrid

/-- No integer is the same as a NaN. -/
theorem Binary64.same_ofInt_of_isNaN {x : Binary64} (nan : x.isNaN = true) (i : Int) :
    x.same (ofInt i) = false := by
  rw [same, nan, isNaN_ofInt]
  rfl

/-- Two doubles have no order, one being a NaN, or are level exactly if they are one key. -/
theorem Binary64.compare?_cases (x y : Binary64) :
    (x.isNaN || y.isNaN) = true ∧ x.compare? y = none
      ∨ ∃ o, x.compare? y = some o ∧ (o == .eq) = x.same y := by
  cases nan : x.isNaN || y.isNaN with
  | true => exact .inl ⟨rfl, by rw [compare?, nan]; rfl⟩
  | false =>
    refine .inr ⟨compare x.rank y.rank, by rw [compare?, nan]; rfl, ?_⟩
    rw [same, nan, if_neg Bool.false_ne_true, Bool.eq_iff_iff, beq_iff_eq, beq_iff_eq,
      compare_eq_iff_eq]

namespace Value

/-! ### Doubles among the keys -/

/-- An integral double is folded onto the integer that it is level with, below the limit. -/
theorem groupKey_float_eq_int_iff (x : Binary64) (i : Int64) :
    (float x).groupKey = int i
      ↔ x.same (Binary64.ofInt i.toInt) = true ∧ i.toInt.natAbs < integralLimit := by
  have exact {n : Int} (small : n.natAbs < integralLimit) :
      n.natAbs ≤ 2 * Binary64.fractionLimit :=
    Nat.le_trans small.le (by decide)
  rw [groupKey]
  constructor
  · intro h
    split at h
    next folds =>
      rw [Bool.and_eq_true, decide_eq_true_eq] at folds
      obtain ⟨integral, small⟩ := folds
      have fits : Integer.Fits x.roundToInt := by
        rw [integralLimit] at small
        rw [Integer.Fits, Integer.least, Integer.greatest]
        omega
      have rounds : i.toInt = x.roundToInt := by
        rw [← Value.int.inj h, Integer.toInt_ofInt_of_fits fits]
      rw [rounds]
      exact ⟨Binary64.same_ofInt_roundToInt integral (exact small), small⟩
    next => cases h
  · rintro ⟨level, small⟩
    obtain ⟨integral, rounds⟩ := Binary64.isIntegral_of_same (exact small) level
    rw [integral, rounds, decide_eq_true small]
    exact congrArg int (Int64.ofInt_toInt i)

/-- A double that is not folded is its own key. -/
theorem groupKey_float_cases (x : Binary64) :
    (∃ i, (float x).groupKey = int i) ∨ (float x).groupKey = float x := by
  rw [groupKey]
  split
  · exact .inl ⟨_, rfl⟩
  · exact .inr rfl

/-- Only doubles are folded. -/
theorem groupKey_of_not_isDouble {v : Value} (h : v.isDouble = false) : v.groupKey = v := by
  cases v <;> first | rfl | cases h

/-! ### Equal values of every kind -/

/-- Values that are no doubles are equal exactly if they are the same, whatever they hold. -/
theorem equal_eq_same {a b : Value} (ha : a.isDouble = false) (hb : b.isDouble = false) :
    a.equal b = a.same b := by
  cases exact : a.isExact && b.isExact with
  | true =>
    rw [Bool.and_eq_true] at exact
    rw [Bool.eq_iff_iff, equal_eq_true_iff exact.1 exact.2, same_eq_true_iff exact.1]
  | false =>
    -- one of them is a list or a record, which no order places
    cases a <;> cases b <;> first
      | rfl
      | contradiction

/-- The rule for nulls agrees with sameness, which decides what has no order. -/
theorem equal_eq_match (a b : Value) : a.equal b = match a.compare? b with
    | some o => o == .eq
    | none => a.same b := by
  cases a <;> cases b <;> rfl

/-- What is compared as two doubles is equal if they are one key. -/
theorem equal_of_doubles {a b : Value} {x y : Binary64} (compared : a.compare? b = x.compare? y)
    (unplaced : (x.isNaN || y.isNaN) = true → a.same b = x.same y) : a.equal b = x.same y := by
  rw [equal_eq_match, compared]
  rcases x.compare?_cases y with ⟨nan, h⟩ | ⟨o, h, level⟩
  · rw [h]
    exact unplaced nan
  · rw [h]
    exact level

/-- Doubles are equal if they are one key, NaN patterns included. -/
theorem equal_float (x y : Binary64) : (float x).equal (float y) = x.same y :=
  equal_of_doubles rfl fun _ => rfl

/-- A double and an integer are equal if the double is one key with that of the integer. -/
theorem equal_float_int (x : Binary64) (i : Int64) :
    (float x).equal (int i) = x.same (Binary64.ofInt i.toInt) := by
  refine equal_of_doubles rfl fun nan => ?_
  rw [Binary64.isNaN_ofInt, Bool.or_false] at nan
  rw [Binary64.same_ofInt_of_isNaN nan]
  rfl

/-- An integer and a double are equal if the double of the integer is the same. -/
theorem equal_int_float (i : Int64) (x : Binary64) :
    (int i).equal (float x) = x.same (Binary64.ofInt i.toInt) := by
  rw [Binary64.same_comm]
  refine equal_of_doubles rfl fun nan => ?_
  rw [Binary64.isNaN_ofInt, Bool.false_or] at nan
  rw [Binary64.same_comm, Binary64.same_ofInt_of_isNaN nan]
  rfl

/-! ### Keys that are parted -/

/-- One of two values is an integer beyond the limit of what is folded, and the other is one key
with the double of the integer. -/
inductive Parted : Value → Value → Prop where
  /-- the integer comes first -/
  | intFloat {i : Int64} {x : Binary64} (level : x.same (Binary64.ofInt i.toInt) = true)
    (beyond : integralLimit ≤ i.toInt.natAbs) : Parted (int i) (float x)
  /-- the double comes first -/
  | floatInt {i : Int64} {x : Binary64} (level : x.same (Binary64.ofInt i.toInt) = true)
    (beyond : integralLimit ≤ i.toInt.natAbs) : Parted (float x) (int i)

/-- Parted values are equal. -/
theorem Parted.equal {a b : Value} (h : Parted a b) : a.equal b = true := by
  cases h with
  | intFloat level => rwa [equal_int_float]
  | floatInt level => rwa [equal_float_int]

/-- Of parted values one is a double and the other is not. -/
theorem not_parted {a b : Value} (h : a.isDouble = b.isDouble) : ¬ Parted a b := by
  rintro (⟨-, -⟩ | ⟨-, -⟩) <;> cases h

/-- An integer and a double are parted if they are level, at or beyond the limit. -/
theorem parted_int_float {i : Int64} {x : Binary64} : Parted (int i) (float x)
    ↔ x.same (Binary64.ofInt i.toInt) = true ∧ integralLimit ≤ i.toInt.natAbs :=
  ⟨fun | .intFloat level beyond => ⟨level, beyond⟩, fun h => .intFloat h.1 h.2⟩

theorem parted_float_int {i : Int64} {x : Binary64} : Parted (float x) (int i)
    ↔ x.same (Binary64.ofInt i.toInt) = true ∧ integralLimit ≤ i.toInt.natAbs :=
  ⟨fun | .floatInt level beyond => ⟨level, beyond⟩, fun h => .floatInt h.1 h.2⟩

/-- Folding keeps the rank, since integers and doubles have one. -/
theorem rank_groupKey (v : Value) : v.groupKey.rank = v.rank := by
  cases v with
  | float x =>
    rcases groupKey_float_cases x with ⟨i, h⟩ | h
    · rw [h]
      rfl
    · rw [h]
  | _ => rfl

theorem cases_of_rank_eq_two {v : Value} (h : v.rank = 2) :
    (∃ i, v = int i) ∨ ∃ x, v = float x := by
  obtain ⟨x, hx⟩ := exists_asFloat?_iff.2 h
  cases v with
  | int i => exact .inl ⟨i, rfl⟩
  | float x => exact .inr ⟨x, rfl⟩
  | _ => cases hx

theorem same_of_rank_ne {a b : Value} (h : a.rank ≠ b.rank) : a.same b = false := by
  cases a <;> cases b <;> first
    | rfl
    | exact absurd rfl h

end Value

namespace Grouping

open Value Subtree

/-! ### Keys that are grouped together -/

theorem sameKey_comm (a b : Value) : sameKey a b = sameKey b a := same_comm _ _

/-- An integer and a double are grouped together if they are level, below the limit. -/
theorem sameKey_int_float (i : Int64) (x : Binary64) : sameKey (.int i) (.float x) = true
    ↔ x.same (Binary64.ofInt i.toInt) = true ∧ i.toInt.natAbs < integralLimit := by
  rw [← groupKey_float_eq_int_iff]
  exact (same_eq_true_iff rfl : (Value.int i).same _ = true ↔ _).trans eq_comm

/-- Doubles are grouped together exactly if they are one key, folded or not. -/
theorem sameKey_float (x y : Binary64) : sameKey (.float x) (.float y) = x.same y := by
  -- a double that is folded is one key with that of its integer, so with no double that is not
  have folded {x y : Binary64} {i : Int64} (h : (Value.float x).groupKey = .int i) :
      sameKey (.float x) (.float y) = x.same y := by
    obtain ⟨level, small⟩ := (groupKey_float_eq_int_iff x i).1 h
    rw [Bool.eq_iff_iff, sameKey, h]
    refine (sameKey_int_float i y).trans ?_
    constructor
    · rintro ⟨level', -⟩
      rw [Binary64.same_comm] at level'
      exact Binary64.same_trans level level'
    · intro hxy
      rw [Binary64.same_comm] at hxy
      exact ⟨Binary64.same_trans hxy level, small⟩
  rcases groupKey_float_cases x with ⟨i, hx⟩ | hx
  · exact folded hx
  · rcases groupKey_float_cases y with ⟨j, hy⟩ | hy
    · rw [sameKey_comm, folded hy, Binary64.same_comm]
    · rw [sameKey, hx, hy, same]

/-- Two values are grouped together exactly if they are equal and not parted. -/
theorem sameKey_iff (a b : Value) :
    sameKey a b = true ↔ a.equal b = true ∧ ¬ Parted a b := by
  -- an integer and a double are equal on both sides of the limit, and parted beyond it
  have limit {i : Int64} {x : Binary64} :
      x.same (Binary64.ofInt i.toInt) = true ∧ i.toInt.natAbs < integralLimit
      ↔ x.same (Binary64.ofInt i.toInt) = true
        ∧ ¬ (x.same (Binary64.ofInt i.toInt) = true ∧ integralLimit ≤ i.toInt.natAbs) := by
    rw [not_and, Nat.not_le]
    exact ⟨fun h => ⟨h.1, fun _ => h.2⟩, fun h => ⟨h.1, h.2 h.1⟩⟩
  have alike {a b : Value} (h : a.isDouble = b.isDouble) (hab : sameKey a b = a.equal b) :
      sameKey a b = true ↔ a.equal b = true ∧ ¬ Parted a b := by
    rw [hab, and_iff_left (not_parted h)]
  by_cases h : a.rank = b.rank
  · by_cases double : a.isDouble = true ∨ b.isDouble = true
    · obtain ⟨ha, hb⟩ := ranks_of_isDouble h double
      rcases cases_of_rank_eq_two ha with ⟨i, rfl⟩ | ⟨x, rfl⟩
      · rcases cases_of_rank_eq_two hb with ⟨j, rfl⟩ | ⟨y, rfl⟩
        · rcases double with double | double <;> cases double
        · rw [sameKey_int_float, equal_int_float, parted_int_float, limit]
      · rcases cases_of_rank_eq_two hb with ⟨j, rfl⟩ | ⟨y, rfl⟩
        · rw [sameKey_comm, sameKey_int_float, equal_float_int, parted_float_int, limit]
        · exact alike rfl ((sameKey_float x y).trans (equal_float x y).symm)
    · simp only [not_or, Bool.not_eq_true] at double
      obtain ⟨ha, hb⟩ := double
      refine alike (ha.trans hb.symm) ?_
      rw [sameKey, groupKey_of_not_isDouble ha, groupKey_of_not_isDouble hb, equal_eq_same ha hb]
  · have apart : sameKey a b = false :=
      same_of_rank_ne (by rwa [rank_groupKey, rank_groupKey])
    rw [apart, equal_of_rank_ne h]
    simp

/-! ### Rows that share a group -/

section Rows

variable {α ε : Type} {key : α → Nat → Value} {levels : Nat} {rows : List α}
  {groups : List (Group α)}

/-- A row is on a path if its key at each level is grouped with the one there. -/
theorem onPath_iff {path : List Value} {row : α} : onPath key path row = true
    ↔ ∀ level k, path[level]? = some k → sameKey k (key row level) = true := by
  rw [onPath, List.all_eq_true]
  exact ⟨fun h level k hk => h (k, level) (List.mem_zipIdx_iff_getElem?.2 hk),
    fun h pair hpair => h pair.2 pair.1 (List.mem_zipIdx_iff_getElem?.1 hpair)⟩

namespace Partition

/-- A leaf stands below all levels. -/
theorem length_of_leaf (p : Partition key levels rows groups) {path : List Value} {leaf : List α}
    (h : At (.groups groups) path (.rows leaf)) : path.length = levels := by
  refine (p.depth path _ h).antisymm ?_
  by_contra short
  obtain ⟨gs, hgs⟩ := p.inner path _ h (Nat.lt_of_not_le short)
  cases hgs

/-- Two rows share an innermost group exactly if their keys are grouped together at all levels. -/
theorem shared_iff (p : Partition key levels rows groups) {r s : α} (hr : r ∈ rows)
    (hs : s ∈ rows) : (∃ path leaf, At (.groups groups) path (.rows leaf) ∧ r ∈ leaf ∧ s ∈ leaf)
      ↔ ∀ level < levels, sameKey (key r level) (key s level) = true := by
  constructor
  · rintro ⟨path, leaf, h, hrl, hsl⟩ level hlevel
    have deep := p.length_of_leaf h
    have hk := List.getElem?_eq_getElem (deep ▸ hlevel)
    rw [p.leaf path leaf h, List.mem_filter, onPath_iff] at hrl hsl
    exact sameKey_equivalence.trans (sameKey_equivalence.symm (hrl.2 level _ hk))
      (hsl.2 level _ hk)
  · intro h
    obtain ⟨path, ⟨leaf, hat, hrl⟩, -⟩ := p.once r hr
    refine ⟨path, leaf, hat, hrl, ?_⟩
    have deep := p.length_of_leaf hat
    rw [p.leaf path leaf hat, List.mem_filter, onPath_iff] at hrl ⊢
    refine ⟨hs, fun level k hk => ?_⟩
    have hlevel : level < levels := deep ▸ (List.getElem?_eq_some_iff.1 hk).1
    exact sameKey_equivalence.trans (hrl.2 level k hk) (h level hlevel)

end Partition

/-- The key that a row has at a level, and null where it has none. -/
def keyOrNull (keyOf : α → Nat → Except ε Value) (row : α) (level : Nat) : Value :=
  (keyOf row level).toOption.getD .null

/-- Rows that are grouped have all keys, and are partitioned by them. -/
theorem partition_of_byLevels {keyOf : α → Nat → Except ε Value} (hlevels : 0 < levels)
    (h : byLevels keyOf levels rows = .ok groups) :
    (∀ row ∈ rows, ∀ level < levels, keyOf row level = .ok (keyOrNull keyOf row level))
      ∧ Partition (keyOrNull keyOf) levels rows groups := by
  have found : ∀ row ∈ rows, ∀ level < levels,
      keyOf row level = .ok (keyOrNull keyOf row level) := by
    intro row hrow level hlevel
    obtain ⟨k, hk⟩ := keys_of_byLevels hlevels h row hrow level hlevel
    rw [keyOrNull, hk]
    rfl
  refine ⟨found, ?_⟩
  rw [byLevels_of_keys hlevels found] at h
  cases h
  obtain ⟨below, rfl⟩ := Nat.exists_eq_succ_of_ne_zero hlevels.ne'
  exact partition_tree below rows

end Rows

/-- A filter that compares by the equality of values holds where the values are equal. -/
theorem evaluate_equality {accessor : Accessor} {record u : Value}
    (hread : accessor.read record = .ok u) (v : Value) {strategy : Strategy}
    (h : strategy = .native ∨ strategy = .underlying ∨ strategy = .equals) :
    Predicate.evaluate record (.compare accessor .eq v strategy) = .ok (u.equal v) := by
  rw [Predicate.evaluate, hread, ← nullAware_eq]
  rcases h with rfl | rfl | rfl
  · rfl
  · rfl
  · rw [nullAware_eq]
    rfl

/-- The equality of filters holds between two values exactly if they are grouped together or parted,
and never both. So records share an innermost group exactly if at every level the filter that the
key of the one equals that of the other holds and the keys are not parted. -/
theorem shared_iff_filtered (a b : Value) :
    ((a.equal b = true ↔ sameKey a b = true ∨ Parted a b) ∧ ¬ (sameKey a b = true ∧ Parted a b))
    ∧ ∀ (accessor : Nat → Accessor) (below : Nat) (records : List Value)
      (groups : List (Group Value)) (strategy : Strategy),
      byLevels (fun record level => (accessor level).read record) (below + 1) records = .ok groups →
      strategy = .native ∨ strategy = .underlying ∨ strategy = .equals →
      ∀ r ∈ records, ∀ s ∈ records,
        (∃ path leaf, At (.groups groups) path (.rows leaf) ∧ r ∈ leaf ∧ s ∈ leaf)
        ↔ ∀ level ≤ below, ∃ u v, (accessor level).read r = .ok u
          ∧ (accessor level).read s = .ok v ∧ ¬ Parted u v
          ∧ Predicate.evaluate r (.compare (accessor level) .eq v strategy) = .ok true := by
  refine ⟨?_, fun accessor below records groups strategy h known r hr s hs => ?_⟩
  · rw [sameKey_iff]
    by_cases parted : Parted a b
    · simp [parted, parted.equal]
    · simp [parted]
  · obtain ⟨found, partition⟩ := partition_of_byLevels (Nat.succ_pos below) h
    rw [partition.shared_iff hr hs]
    constructor
    · intro shared level hlevel
      have hr := found r hr level (Nat.lt_succ_of_le hlevel)
      obtain ⟨equal, whole⟩ := (sameKey_iff _ _).1 (shared level (Nat.lt_succ_of_le hlevel))
      refine ⟨_, _, hr, found s hs level (Nat.lt_succ_of_le hlevel), whole, ?_⟩
      rw [evaluate_equality hr _ known, equal]
    · intro filtered level hlevel
      obtain ⟨u, v, hu, hv, whole, holds⟩ := filtered level (Nat.le_of_lt_succ hlevel)
      rw [evaluate_equality hu _ known, Except.ok.injEq] at holds
      cases (found r hr level hlevel).symm.trans hu
      cases (found s hs level hlevel).symm.trans hv
      exact (sameKey_iff _ _).2 ⟨holds, whole⟩

/-- Four marks in three groups: `1` and `1.0` share one, in which the filter finds either by the
other. The filter for the double of `2 ^ 53` finds `2 ^ 53` as well, and these two are parted. -/
theorem shared_iff_filtered_marks :
    let mark : Accessor := ⟨"mark", [.member "mark" .dynamic true], .dynamic, true, false⟩
    let marked (v : Value) : Value := .object [("mark", v)]
    let edge : Binary64 := ⟨0x4340000000000000⟩
    let records := [marked (.int 1), marked (.float (Binary64.ofInt 1)),
      marked (.int 9007199254740992), marked (.float edge)]
    let groups := [Group.ofRows (.int 1) (records.take 2),
      Group.ofRows (.int 9007199254740992) [marked (.int 9007199254740992)],
      Group.ofRows (.float edge) [marked (.float edge)]]
    byLevels (fun record _ => mark.read record) 1 records = .ok groups
      ∧ (∃ path leaf, At (.groups groups) path (.rows leaf)
        ∧ marked (.int 1) ∈ leaf ∧ marked (.float (Binary64.ofInt 1)) ∈ leaf)
      ∧ Predicate.evaluate (marked (.int 9007199254740992))
        (.compare mark .eq (.float edge) .equals) = .ok true
      ∧ ¬ ∃ path leaf, At (.groups groups) path (.rows leaf)
        ∧ marked (.int 9007199254740992) ∈ leaf ∧ marked (.float edge) ∈ leaf := by
  intro mark marked edge records groups
  have grouped : byLevels (fun record _ => mark.read record) 1 records = .ok groups := by
    simp only [mark, marked, edge, records, groups]
    rfl
  have shared := (shared_iff_filtered (.int 1) (.float (Binary64.ofInt 1))).2 (fun _ => mark) 0
    records groups .equals grouped (.inr (.inr rfl))
  refine ⟨grouped, (shared _ (by simp [records]) _ (by simp [records])).2 fun level _ => ?_,
    by rfl, fun together => ?_⟩
  · refine ⟨.int 1, .float (Binary64.ofInt 1), rfl, rfl, fun parted => ?_, by rfl⟩
    exact absurd (parted_int_float.1 parted).2 (by decide)
  · obtain ⟨u, v, hu, hv, whole, -⟩ := (shared (marked (.int 9007199254740992))
      (by simp [records]) (marked (.float edge)) (by simp [records])).1 together 0 (Nat.le_refl 0)
    cases hu
    cases hv
    exact whole (.intFloat (by decide) (by decide))

/-- The filter takes `2 ^ 53` and the double of it for equal, and they are not grouped together. -/
theorem not_shared_of_equal :
    (Value.int 9007199254740992).equal (.float ⟨0x4340000000000000⟩) = true
      ∧ sameKey (.int 9007199254740992) (.float ⟨0x4340000000000000⟩) = false := by
  decide

end Grouping

end DataGrid
