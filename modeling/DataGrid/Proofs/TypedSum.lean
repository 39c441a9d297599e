import DataGrid.Proofs.Binary64.Rounding
import DataGrid.Proofs.Outcome
import DataGrid.RunningSum

/-!
# Sums of a known type and of any type

A `TypedSum` starts from the zero of its type, and a `RunningSum` takes its kind from the first
value. Over the same values they come out the same for all types but doubles
(`TypedSum.same_of_noDouble`). A sum of doubles comes out the same if its values are led by integers
that are doubles exactly, and a double (`TypedSum.same_of_led`): the running sum of the integers is
exact, and so is that of their doubles. Over integers only the two differ in kind
(`TypedSum.kinds_of_ints`).
-/

namespace DataGrid

/-- Whether the values of a type are doubles. -/
def FieldType.holdsDoubles : FieldType → Bool
  | float32 | float64 => true
  | _ => false

namespace RunningSum

variable {s s' : RunningSum} {v : Value} {values : List Value}

/-- A sum with a value is not empty. -/
theorem add_ne_empty (h : s.add v = .ok s') : s' ≠ .empty := by
  rintro rfl
  cases s <;> cases v <;> try cases h
  case span sum a =>
    obtain ⟨_, -, h⟩ := Outcome.map_eq_ok.1 h
    cases h

theorem foldlM_ne_empty (some : s ≠ .empty ∨ values ≠ [])
    (h : values.foldlM add s = .ok s') : s' ≠ .empty := by
  induction values generalizing s with
  | nil =>
    cases h
    exact some.resolve_right fun h => h rfl
  | cons v rest ih =>
    rw [List.foldlM_cons] at h
    obtain ⟨next, hnext, h⟩ := Outcome.bind_eq_ok.1 h
    exact ih (.inl (add_ne_empty hnext)) h

/-- Integers are added up exactly. -/
theorem foldlM_add_ints (is : List Int64) (n : Int) :
    (is.map Value.int).foldlM add (int n) = .ok (int (n + (is.map Int64.toInt).sum)) := by
  induction is generalizing n with
  | nil =>
    simp only [List.map_nil, List.sum_nil, Int.add_zero]
    rfl
  | cons i is ih =>
    rw [List.map_cons, List.foldlM_cons, List.map_cons, List.sum_cons, ← Int.add_assoc]
    exact ih (n + i.toInt)

end RunningSum

namespace TypedSum

/-- A sum of a known type is the same as one of any type. -/
inductive Agrees : TypedSum → RunningSum → Prop where
  /-- no integers -/
  | noInts : Agrees (int 0) .empty
  /-- integers -/
  | int (sum : Int) : Agrees (int sum) (.int sum)
  /-- no spans -/
  | noSpans : Agrees (span Span.zero) .empty
  /-- spans -/
  | span (sum : Span) : Agrees (span sum) (.span sum)
  /-- doubles -/
  | float {x y : Binary64} (h : x.same y = true) : Agrees (float x) (.float y)
  /-- values of any type -/
  | untyped (sum : RunningSum) : Agrees (untyped sum) sum

variable {t t' : TypedSum} {s s' : RunningSum} {v : Value} {values : List Value}

theorem addSpans_zero (a : Span) : Sum.addSpans Span.zero a = .ok a := by
  obtain ⟨nanos, inRange⟩ := a
  have same : Span.zero.nanos + nanos = nanos := Int.zero_add nanos
  rw [Sum.addSpans, Span.add?, Span.ofNanos?]
  simp only [same, dif_pos inRange]

/-- One more value keeps sums the same. -/
theorem Agrees.add (h : Agrees t s) (ht : t.add v = .ok t') (hs : s.add v = .ok s') :
    Agrees t' s' := by
  cases h with
  | noInts =>
    cases v <;> cases ht
    cases hs
    rw [Int.zero_add]
    exact .int _
  | int sum =>
    cases v <;> cases ht
    cases hs
    exact .int _
  | noSpans =>
    cases v <;> try cases ht
    case span a =>
      rw [TypedSum.add, addSpans_zero] at ht
      cases ht
      cases hs
      exact .span a
  | span sum =>
    cases v <;> try cases ht
    case span a =>
      obtain ⟨total, htotal, rfl⟩ := Outcome.map_eq_ok.1 ht
      rw [RunningSum.add, htotal] at hs
      cases hs
      exact .span _
  | float h =>
    cases v <;> try cases ht
    all_goals
      cases hs
      exact .float (Binary64.same_add h _)
  | untyped sum =>
    obtain ⟨total, htotal, rfl⟩ := Outcome.map_eq_ok.1 ht
    cases htotal.symm.trans hs
    exact .untyped _

/-- More values keep sums the same. -/
theorem Agrees.foldlM (h : Agrees t s) (ht : values.foldlM TypedSum.add t = .ok t')
    (hs : values.foldlM RunningSum.add s = .ok s') : Agrees t' s' := by
  induction values generalizing t s with
  | nil =>
    cases ht
    cases hs
    exact h
  | cons v rest ih =>
    rw [List.foldlM_cons] at ht hs
    obtain ⟨t₁, ht₁, ht⟩ := Outcome.bind_eq_ok.1 ht
    obtain ⟨s₁, hs₁, hs⟩ := Outcome.bind_eq_ok.1 hs
    exact ih (h.add ht₁ hs₁) ht hs

theorem Agrees.same_value (h : Agrees t s) (some : s ≠ .empty) :
    t.value.same s.value = true := by
  cases h with
  | noInts | noSpans => exact absurd rfl some
  | int | span | untyped => exact Value.same_refl _
  | float h => exact h

/-- Sums of the same values come out the same in every type but doubles. -/
theorem same_of_noDouble {type : FieldType} (noDouble : type.holdsDoubles = false)
    (ht : zero? type = some t) (some : values ≠ []) (ht' : values.foldlM TypedSum.add t = .ok t')
    (hs' : values.foldlM RunningSum.add .empty = .ok s') : t'.value.same s'.value = true := by
  have start : Agrees t .empty := by
    cases type <;> cases ht
    case int32 | int64 => exact .noInts
    case float32 | float64 => cases noDouble
    case span => exact .noSpans
    case dynamic => exact .untyped .empty
  exact (start.foldlM ht' hs').same_value (RunningSum.foldlM_ne_empty (.inr some) hs')

/-! ### Doubles -/

theorem zero?_of_holdsDoubles {type : FieldType} (doubles : type.holdsDoubles = true)
    (h : zero? type = some t) : t = .float (.zero false) := by
  cases type <;> cases doubles <;> cases h <;> rfl

/-- Integers that are added up exactly as doubles, then a double, then any values. -/
def Led (values : List Value) : Prop :=
  ∃ (is : List Int64) (x : Binary64) (rest : List Value),
    values = is.map .int ++ .float x :: rest
      ∧ (is.map fun i => i.toInt.natAbs).sum ≤ 2 * Binary64.fractionLimit

/-- The doubles of integers are added up as the integers are, while the sum is a double. -/
theorem foldlM_add_ints {is : List Int64} {n : Int}
    (h : n.natAbs + (is.map fun i => i.toInt.natAbs).sum ≤ 2 * Binary64.fractionLimit) :
    (is.map Value.int).foldlM TypedSum.add (.float (.ofInt n))
      = .ok (.float (.ofInt (n + (is.map Int64.toInt).sum))) := by
  induction is generalizing n with
  | nil =>
    simp only [List.map_nil, List.sum_nil, Int.add_zero]
    rfl
  | cons i is ih =>
    rw [List.map_cons, List.sum_cons] at h
    have added : TypedSum.add (.float (.ofInt n)) (.int i) = .ok (.float (.ofInt (n + i.toInt))) :=
      congrArg (fun x => Except.ok (TypedSum.float x)) (Binary64.add_ofInt (by omega) (by omega))
    rw [List.map_cons, List.foldlM_cons, added, List.map_cons, List.sum_cons, ← Int.add_assoc]
    exact ih (by omega)

/-- Values that are led by exact integers and a double have the same sum as doubles and as values of
any type. -/
theorem same_of_led (led : Led values)
    (ht' : values.foldlM TypedSum.add (.float (.zero false)) = .ok t')
    (hs' : values.foldlM RunningSum.add .empty = .ok s') : t'.value.same s'.value = true := by
  obtain ⟨is, x, rest, rfl, fits⟩ := led
  rw [List.foldlM_append] at ht' hs'
  have typed : (is.map Value.int).foldlM TypedSum.add (.float (.zero false))
      = .ok (.float (.ofInt (is.map Int64.toInt).sum)) := by
    have start : Binary64.zero false = .ofInt 0 := by rfl
    rw [start, foldlM_add_ints (by simpa using fits), Int.zero_add]
  rw [typed] at ht'
  cases is with
  | nil =>
    have first : Agrees (.float (Binary64.add (.zero false) x)) (.float x) :=
      .float (Binary64.same_zero_add x)
    have hs' : rest.foldlM RunningSum.add (.float x) = .ok s' := hs'
    exact (first.foldlM ht' hs').same_value (RunningSum.foldlM_ne_empty (.inl (by rintro ⟨⟩)) hs')
  | cons i is =>
    have running : ((i :: is).map Value.int).foldlM RunningSum.add .empty
        = .ok (.int ((i :: is).map Int64.toInt).sum) := by
      rw [List.map_cons, List.foldlM_cons, List.map_cons, List.sum_cons]
      exact RunningSum.foldlM_add_ints is i.toInt
    rw [running] at hs'
    generalize ((i :: is).map Int64.toInt).sum = sum at ht' hs'
    have hs' : rest.foldlM RunningSum.add (.float ((Binary64.ofInt sum).add x)) = .ok s' := hs'
    have first : Agrees (.float ((Binary64.ofInt sum).add x))
        (.float ((Binary64.ofInt sum).add x)) := .float (Binary64.same_refl _)
    exact (first.foldlM ht' hs').same_value (RunningSum.foldlM_ne_empty (.inl (by rintro ⟨⟩)) hs')

/-- A sum of doubles stays one. -/
theorem float_of_foldlM {x : Binary64} (h : values.foldlM TypedSum.add (.float x) = .ok t') :
    ∃ y, t' = .float y := by
  induction values generalizing x with
  | nil =>
    cases h
    exact ⟨x, rfl⟩
  | cons v rest ih =>
    rw [List.foldlM_cons, TypedSum.add] at h
    obtain ⟨next, hnext, h⟩ := Outcome.bind_eq_ok.1 h
    cases hv : v.asFloat? <;> rw [hv] at hnext <;> cases hnext
    exact ih h

/-- Over integers alone, a sum of doubles is a double, and one of any type is an integer. -/
theorem kinds_of_ints {is : List Int64} (some : is ≠ []) {x : Binary64}
    (fits : Integer.Fits (is.map Int64.toInt).sum)
    (ht' : (is.map Value.int).foldlM TypedSum.add (.float x) = .ok t')
    (hs' : (is.map Value.int).foldlM RunningSum.add .empty = .ok s') :
    ∃ y i, t'.value = .float y ∧ s'.value = .int i := by
  obtain ⟨y, rfl⟩ := float_of_foldlM ht'
  cases is with
  | nil => exact absurd rfl some
  | cons i is =>
    rw [List.map_cons, List.foldlM_cons] at hs'
    cases (RunningSum.foldlM_add_ints is i.toInt).symm.trans hs'
    rw [List.map_cons, List.sum_cons] at fits
    refine ⟨y, Int64.ofInt (i.toInt + (is.map Int64.toInt).sum), rfl, ?_⟩
    rw [RunningSum.value, Sum.ofInt, Integer.narrow?, if_pos fits]

end TypedSum

end DataGrid
