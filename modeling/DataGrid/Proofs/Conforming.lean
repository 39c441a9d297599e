import DataGrid.Accessor.Resolve
import DataGrid.Proofs.Value.Sameness

/-!
# Records that conform to a shape

* `Shape.conforms` says that a record has a value of the declared type at every member, or a null
  where the member may be null. A member of a record is what is read under its name, so that its key
  may differ in the case of ASCII letters.
* `FieldType.Admits` says that a value is one of a type or a null. A member of a record that
  conforms is admitted by its type, and is a null only if it may be (`Shape.admits_member`).
-/

namespace DataGrid

mutual

/-- Whether a value is one of a type. -/
def FieldType.holds : FieldType → Value → Bool
  | .bool, .bool _ => true
  | .int32, .int i => FieldType.fits32 i
  | .int64, .int _ => true
  | .float32, .float _ => true
  | .float64, .float _ => true
  | .string, .string _ => true
  | .dateTime, .dateTime _ => true
  | .span, .span _ => true
  | .uuid, .uuid _ => true
  | .enum _, .int _ => true
  | .object shape, v => shape.conforms v
  | .custom _, v => !v.isNull
  | .dynamic, _ => true
  | _, _ => false

/-- Whether a record has members as a shape declares them. -/
def Shape.conforms : Shape → Value → Bool
  | .mk _ fields, .object members => Field.allHold fields members
  | _, _ => false

/-- Whether members of a record are as they are declared: null only where a member may be null, and
of their types elsewhere. -/
def Field.allHold : List Field → List (String × Value) → Bool
  | [], _ => true
  | .mk name type nullable :: rest, members =>
    (if (Step.memberOf members name).isNull then nullable
      else type.holds (Step.memberOf members name))
    && Field.allHold rest members

end

namespace FieldType

/-- Whether the values of a type, nulls apart, are exact values of one kind. -/
def isExact : FieldType → Bool
  | bool | int32 | int64 | string | dateTime | span | uuid | enum _ => true
  | _ => false

/-- Whether the values of a type, nulls apart, are integers that are numbers. -/
def isInteger : FieldType → Bool
  | int32 | int64 => true
  | _ => false

theorem isExact_of_isInteger {t : FieldType} (h : t.isInteger = true) : t.isExact = true := by
  cases t <;> first | rfl | exact nomatch h

theorem isDynamic_of_isExact {t : FieldType} (h : t.isExact = true) : t.isDynamic = false := by
  cases t <;> first | rfl | exact nomatch h

theorem exact_of_holds {t : FieldType} {v : Value} (ht : t.isExact = true)
    (h : t.holds v = true) : v.isExact = true := by
  cases t <;> cases v <;> first | rfl | simp [isExact, holds] at ht h

theorem int_of_holds {t : FieldType} {v : Value} (ht : t.isInteger = true)
    (h : t.holds v = true) : ∃ i, v = .int i := by
  cases t <;> cases v <;> first | exact ⟨_, rfl⟩ | simp [isInteger, holds] at ht h

end FieldType

/-! ### Members -/

/-- A value of a type, or a null. -/
def FieldType.Admits (t : FieldType) (v : Value) : Prop := v = .null ∨ t.holds v = true

theorem Field.admits_of_allHold {fields : List Field} {members : List (String × Value)}
    (h : allHold fields members = true) {f : Field} (hf : f ∈ fields) :
    f.type.Admits (Step.memberOf members f.name)
      ∧ (Step.memberOf members f.name = .null → f.nullable = true) := by
  induction fields with
  | nil => cases hf
  | cons first rest ih =>
    obtain ⟨name, type, nullable⟩ := first
    obtain ⟨here, hrest⟩ := Bool.and_eq_true_iff.1 h
    rcases List.mem_cons.1 hf with rfl | hf
    · split at here
      next null => exact ⟨.inl (Value.isNull_iff.1 null), fun _ => here⟩
      next some => exact ⟨.inr here, fun null => absurd (Value.isNull_iff.2 null) some⟩
    · exact ih hrest hf

theorem Shape.field?_mem {shape : Shape} {name : String} {f : Field}
    (h : shape.field? name = some f) : f ∈ shape.fields := by
  rw [field?] at h
  split at h
  next g hg =>
    cases h
    exact List.mem_of_find?_eq_some hg
  next =>
    split at h
    next only honly =>
      cases h
      exact (List.mem_filter.1 (honly ▸ List.mem_singleton_self f)).1
    next => cases h

/-- A member of a record that conforms has a value of its type, or a null where it may be null. -/
theorem Shape.admits_member {shape : Shape} {record : Value} (h : shape.conforms record = true)
    {f : Field} (hf : f ∈ shape.fields) :
    ∃ v, Step.readMember f.name record = .value v ∧ f.type.Admits v
      ∧ (v = .null → f.nullable = true) := by
  obtain ⟨name, fields⟩ := shape
  cases record with
  | object members => exact ⟨_, rfl, Field.admits_of_allHold h hf⟩
  | _ => cases h

end DataGrid
