import DataGrid.Filter.Clause
import DataGrid.Proofs.Accessor.Values
import DataGrid.Proofs.Conversion
import DataGrid.Proofs.Value.Ordering

/-!
# Values as literals

* The JSON of a value, read as a literal, is converted to the value in the types that have literals
  for their values (`FieldType.convert_toJson`), moments that are written as others apart: these are
  settled.
* The clause that compares a member with such a literal holds where a record has a value that would
  be grouped with the value that is read (`Clause.evaluate_equal`).
-/

namespace DataGrid

/-- A settled value is as exact as the value is. -/
theorem Value.isExact_settle (v : Value) : v.settle.isExact = v.isExact := by
  cases v <;> rfl

namespace FieldType

/-- Whether the values of a type, nulls apart, are exact and have literals in JSON. -/
def hasLiterals : FieldType → Bool
  | bool | int32 | int64 | string | dateTime | uuid | enum _ => true
  | _ => false

variable {t : FieldType} {v : Value}

theorem isExact_of_hasLiterals (h : t.hasLiterals = true) : t.isExact = true := by
  cases t <;> first | rfl | exact nomatch h

/-- Types that have literals have exact values only. -/
theorem exact_of_admits (ht : t.isExact = true) (h : t.Admits v) : v.isExact = true := by
  rcases h with rfl | h
  · rfl
  · exact exact_of_holds ht h

/-- A settled value is one of the same types. -/
theorem holds_settle (ht : t.hasLiterals = true) (h : t.holds v = true) :
    t.holds v.settle = true := by
  cases v with
  | dateTime d => cases t <;> first | exact h | cases ht
  | _ => exact h

/-- A settled value is one of the same type. -/
theorem admits_settle (ht : t.hasLiterals = true) (h : t.Admits v) : t.Admits v.settle := by
  rcases h with rfl | h
  · exact .inl rfl
  · exact .inr (holds_settle ht h)

/-- A literal that is the JSON of a value is converted to the value, settled. -/
theorem convert?_toJson (ht : t.hasLiterals = true) (h : t.holds v = true) :
    t.convert? (.ofJson v.toJson) = some v.settle := by
  have integer (i : Int64) : Value.ofJson (.int i.toInt) = .int i := by
    rw [Value.ofJson, Integer.narrow?_toInt]
  cases t <;> try cases ht
  all_goals cases v <;> try cases h
  case bool => rfl
  case int32 i =>
    have fits : fits32 i = true := h
    rw [Value.toJson, integer, convert?, Value.literalInteger?, Option.filter_some, if_pos fits]
    rfl
  case int64 i =>
    rw [Value.toJson, integer]
    rfl
  case string => rfl
  case dateTime d =>
    rw [Value.toJson, Value.ofJson]
    exact convert?_dateTime_text d
  case uuid u =>
    rw [Value.toJson, Value.ofJson]
    exact convert?_uuid_text u
  case enum e i =>
    rw [Value.toJson, integer]
    rfl

theorem isNull_ofJson_toJson (ht : t.hasLiterals = true) (h : t.holds v = true) :
    (Value.ofJson v.toJson).isNull = false := by
  cases t <;> try cases ht
  all_goals cases v <;> try cases h
  all_goals first | rfl | (rw [Value.toJson, Value.ofJson, Integer.narrow?_toInt]; rfl)

/-- A null stays one. -/
theorem convert_toJson (ht : t.hasLiterals = true) (h : t.Admits v) :
    t.convert (.ofJson v.toJson) = .ok v.settle := by
  rcases h with rfl | h
  · rfl
  · rw [convert, isNull_ofJson_toJson ht h, if_neg Bool.false_ne_true, convert?_toJson ht h]

end FieldType

/-! ### Equality -/

/-- The equality of filters places nulls as the operator does. -/
theorem nullAware_eq (a b : Value) :
    nullAware (Predicate.nativeOutcome .eq) .eq a b = a.equal b := by
  have told (equal : Bool) : Comparator.eq.admits (Predicate.asOutcome equal) = equal := by
    cases equal <;> rfl
  cases a <;> cases b <;> first | rfl | exact told _

/-- On exact values it is the sameness of keys. -/
theorem equal_eq_sameKey {a b : Value} (ha : a.isExact = true) (hb : b.isExact = true) :
    a.equal b = Grouping.sameKey b a := by
  rw [Bool.eq_iff_iff, Value.equal_eq_true_iff ha hb, Grouping.sameKey_eq_true_iff hb ha, eq_comm]

namespace Clause

variable {s : Settings} {a : Accessor} {v : Value}

/-- The clause that compares a member with the JSON of a value. -/
theorem compile_equal (asWritten : s.stringToLower = false) (ha : a.type.hasLiterals = true)
    (hv : a.type.Admits v) : ∃ strategy, (strategy = .native ∨ strategy = .underlying)
      ∧ compile s a "=" (.ofJson v.toJson) = .ok (.compare a .eq v.settle strategy) := by
  have word : Text.lowerCase "=" = "=" := by decide +kernel
  have kept : prepare s "=" a = a := by
    rw [prepare, asWritten]
    rfl
  have literal : foldLiteral s v.settle = v.settle := by
    cases v.settle <;> first | rfl | rw [foldLiteral, fold, asWritten]; rfl
  have typed : a.type.isDynamic = false :=
    FieldType.isDynamic_of_isExact (FieldType.isExact_of_hasLiterals ha)
  have compared : ∃ strategy, (strategy = .native ∨ strategy = .underlying)
      ∧ strategy? s a .eq v.settle = .ok (some strategy) := by
    rw [strategy?]
    cases ht : a.type <;> rw [ht] at ha <;> try cases ha
    all_goals first | exact ⟨_, .inl rfl, rfl⟩ | exact ⟨_, .inr rfl, rfl⟩
  obtain ⟨strategy, known, compared⟩ := compared
  refine ⟨strategy, known, ?_⟩
  have test : textTest? "=" = none := rfl
  have operator : Comparator.ofToken? "=" = some .eq := rfl
  have equality : (v.settle.isNull && !a.nullable && !Comparator.eq.isEquality) = false :=
    Bool.and_false _
  rw [compile, word, kept, ofPrepared, test]
  simp only [operator, typed, Bool.false_eq_true, if_false, FieldType.convert_toJson ha hv]
  rw [compareTyped, equality, literal]
  simp only [Bool.false_eq_true, if_false, compared]

/-- It holds where a record has a value that would be grouped with the value that is read. -/
theorem evaluate_equal (asWritten : s.stringToLower = false) (ha : a.type.hasLiterals = true)
    (hv : a.type.Admits v) : ∃ p, compile s a "=" (.ofJson v.toJson) = .ok p
      ∧ ∀ record w, a.read record = .ok w → a.type.Admits w →
        p.evaluate record = .ok (Grouping.sameKey v.settle w) := by
  have exact := FieldType.isExact_of_hasLiterals ha
  have read := FieldType.admits_settle ha hv
  obtain ⟨strategy, known, h⟩ := compile_equal asWritten ha hv
  refine ⟨_, h, fun record w hread hw => ?_⟩
  rw [Predicate.evaluate, hread, ← equal_eq_sameKey (FieldType.exact_of_admits exact hw)
    (FieldType.exact_of_admits exact read), ← nullAware_eq]
  rcases known with rfl | rfl <;> rfl

end Clause

end DataGrid
