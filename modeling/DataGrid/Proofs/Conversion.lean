import DataGrid.Conversion
import DataGrid.Proofs.Conforming
import DataGrid.Proofs.DateTime
import DataGrid.Proofs.Uuid

/-!
# Literals that a value writes itself

A key of a group goes out as a text and comes back as the literal of a filter. Truth values,
integers, identifiers and moments are the values of the types for which `FieldType.hasTexts` holds.
The text of such a value is converted to the value again, but for the moments that are written as
others are (`FieldType.convert?_text`, `Value.settle_eq_self_iff`).
-/

namespace DataGrid

namespace Value

/-- Whether a value is no moment that is written as another one. -/
def Settled : Value → Prop
  | dateTime d => d.fields.Settled
  | _ => True

instance : DecidablePred Settled
  | dateTime d => inferInstanceAs (Decidable d.fields.Settled)
  | null | bool _ | int _ | float _ | string _ | span _ | uuid _ | array _ | object _ =>
    inferInstanceAs (Decidable True)

/-- The value that the text of a value is read as. -/
def settle : Value → Value
  | dateTime d => dateTime d.settle
  | v => v

/-- The moments that are written as others are the values that are not read back. -/
theorem settle_eq_self_iff {v : Value} : v.settle = v ↔ v.Settled := by
  cases v with
  | dateTime d => rw [settle, dateTime.injEq, DateTime.settle_eq_self_iff, Settled]
  | _ => exact iff_of_true rfl trivial

/-- What is read back is settled. -/
theorem settled_settle (v : Value) : v.settle.Settled := by
  cases v with
  | dateTime d => exact d.valid.settled_settle
  | _ => trivial

/-- Whether none of some values is a moment that is written as another one. -/
def AllSettled (vs : List Value) : Prop := ∀ v ∈ vs, v.Settled

instance : DecidablePred AllSettled := fun vs => inferInstanceAs (Decidable (∀ v ∈ vs, v.Settled))

/-- Settled values stay as they are. -/
theorem map_settle_eq_self {vs : List Value} (h : AllSettled vs) : vs.map settle = vs := by
  have same := List.map_congr_left fun v hv => settle_eq_self_iff.2 (h v hv)
  rwa [List.map_id'] at same

/-- Values that are read back are settled. -/
theorem allSettled_map_settle (vs : List Value) : AllSettled (vs.map settle) :=
  List.forall_mem_map.2 fun v _ => v.settled_settle

/-- A value is written as the one that is read back. -/
theorem text_settle (v : Value) : v.settle.text = v.text := by
  cases v with
  | dateTime d => rw [settle, text, text, d.text_settle]
  | _ => rfl

end Value

namespace FieldType

/-- Whether the values of a type are truth values, integers, identifiers or moments, which have
texts that literals may use. -/
def hasTexts : FieldType → Bool
  | bool | int32 | int64 | uuid | dateTime => true
  | _ => false

/-! ### One kind after the other -/

theorem literalTruth?_boolText (b : Bool) :
    (Value.string (Value.boolText b)).literalTruth? = some b := by
  cases b <;> decide

theorem literalInteger?_text (i : Int64) :
    (Value.string (Value.int i).text).literalInteger? = some i := by
  rw [Value.text, Value.literalInteger?, Value.trimmed, String.toList_ofList, Integer.trim_text,
    Integer.ofText?_text]

/-- The digits of an integer are read back by every integer type that holds it. -/
theorem convert?_int_text {t : FieldType} {i : Int64} (ht : t.isInteger = true)
    (h : t.holds (.int i) = true) :
    t.convert? (.string (Value.int i).text) = some (.int i) := by
  cases t with
  | int32 =>
    have fits : fits32 i = true := h
    rw [convert?, literalInteger?_text, Option.filter_some, if_pos fits, Option.map_some]
  | int64 => rw [convert?, literalInteger?_text, Option.map_some]
  | _ => cases ht

theorem convert?_uuid_text (u : Uuid) :
    uuid.convert? (.string (Value.uuid u).text) = some (.uuid u) := by
  rw [Value.text, convert?, Value.trimmed, String.toList_ofList, u.trim_text, u.ofText?_text,
    Option.map_some]

/-- The text of a moment is read back as the settled moment. -/
theorem convert?_dateTime_text (d : DateTime) :
    dateTime.convert? (.string (Value.dateTime d).text) = some (.dateTime d.settle) := by
  rw [Value.text, convert?, d.ofText?_text, Option.map_some]

/-- What is written of a value of a type is read as the value, settled. -/
theorem convert?_text {t : FieldType} {v : Value} (ht : t.hasTexts = true)
    (h : t.holds v = true) : t.convert? (.string v.text) = some v.settle := by
  cases t with
  | bool =>
    cases v with
    | bool b =>
      rw [convert?, Value.text, literalTruth?_boolText, Option.map_some]
      rfl
    | _ => cases h
  | int32 | int64 =>
    obtain ⟨i, rfl⟩ := int_of_holds rfl h
    exact convert?_int_text rfl h
  | uuid =>
    cases v with
    | uuid u => exact convert?_uuid_text u
    | _ => cases h
  | dateTime =>
    cases v with
    | dateTime d => exact convert?_dateTime_text d
    | _ => cases h
  | _ => cases ht

/-! ### Literals -/

theorem convert_string {t : FieldType} {s : String} {v : Value}
    (h : t.convert? (.string s) = some v) : t.convert (.string s) = .ok v := by
  have some : (Value.string s).isNull = false := rfl
  rw [convert, some, if_neg Bool.false_ne_true, h]

/-- Identifiers and moments are texts in JSON too. -/
theorem toJson_eq_string {t : FieldType} {v : Value} (ht : t = .uuid ∨ t = .dateTime)
    (h : t.holds v = true) : v.toJson = .string v.text := by
  rcases ht with rfl | rfl
  · cases v with
    | uuid u => rfl
    | _ => cases h
  · cases v with
    | dateTime d => rfl
    | _ => cases h

/-- A literal that is the text of a value, or its JSON if that is a text, is the value again, unless
it is a moment that is written as another one, which it is then. -/
theorem convert_text_of_holds {t : FieldType} {v : Value} (ht : t.hasTexts = true)
    (h : t.holds v = true) :
    t.convert (.string v.text) = .ok v.settle
      ∧ (t = .uuid ∨ t = .dateTime →
        ∃ s, v.toJson = .string s ∧ t.convert (.string s) = .ok v.settle)
      ∧ v.settle.text = v.text
      ∧ (v.settle = v ↔ v.Settled) := by
  have text := convert_string (convert?_text ht h)
  exact ⟨text, fun written => ⟨v.text, toJson_eq_string written h, text⟩, v.text_settle,
    Value.settle_eq_self_iff⟩

/-- The last nanosecond of a leap second before the year zero is converted back. -/
theorem convert_text_leapSecond :
    ∃ d : DateTime, d.fields = ⟨-4321, 12, 31, 23, 59, 59, 1999999999⟩
      ∧ d.text = "-4321-12-31T23:59:60.999999999".toList
      ∧ dateTime.convert (.string (Value.dateTime d).text) = .ok (.dateTime d)
      ∧ ∃ s, (Value.dateTime d).toJson = .string s
        ∧ dateTime.convert (.string s) = .ok (.dateTime d) := by
  let d : DateTime := ⟨⟨-4321, 12, 31, 23, 59, 59, 1999999999⟩, by decide⟩
  obtain ⟨text, json, -, settled⟩ := convert_text_of_holds (t := dateTime)
    (v := .dateTime d) rfl rfl
  rw [settled.2 (by decide)] at text json
  exact ⟨d, rfl, by decide, text, json (.inr rfl)⟩

/-- A second that is filled before the last one of its minute is converted to the next second, which
has the same text. -/
theorem not_convert_text_filledSecond :
    ∃ d e : DateTime, d.fields = ⟨2016, 12, 31, 23, 56, 4, 1333333333⟩
      ∧ e.fields = ⟨2016, 12, 31, 23, 56, 5, 333333333⟩
      ∧ d.text = "2016-12-31T23:56:05.333333333".toList
      ∧ dateTime.holds (.dateTime d) = true
      ∧ dateTime.convert (.string (Value.dateTime d).text) = .ok (.dateTime e)
      ∧ dateTime.convert (.string (Value.dateTime d).text) ≠ .ok (.dateTime d) := by
  let d : DateTime := ⟨⟨2016, 12, 31, 23, 56, 4, 1333333333⟩, by decide⟩
  let e : DateTime := ⟨⟨2016, 12, 31, 23, 56, 5, 333333333⟩, by decide⟩
  have carried : d.settle = e := by decide
  have apart : e ≠ d := by decide
  have read : dateTime.convert (.string (Value.dateTime d).text) = .ok (.dateTime e) :=
    carried ▸ convert_string (convert?_dateTime_text d)
  refine ⟨d, e, rfl, rfl, by decide, rfl, read, fun same => ?_⟩
  exact apart (Value.dateTime.inj (Except.ok.inj (read.symm.trans same)))

end FieldType

end DataGrid
