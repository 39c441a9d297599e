import DataGrid.Proofs.Accessor.Reading

/-!
# The members that paths end at

* `Shape.every` says that the members of a shape have a property at every depth. One such property
  is to be declared as a plain or as a nullable member (`Field.isDeclared`).
* A path ends at such a member, or at a dynamic one that may be null (`Accessor.ofPath_ends`).
-/

namespace DataGrid

mutual

/-- Whether the members below a type have a property at every depth. -/
def FieldType.every (p : Field → Bool) : FieldType → Bool
  | .object shape => shape.every p
  | _ => true

/-- Whether the members of a shape have a property at every depth. -/
def Shape.every (p : Field → Bool) : Shape → Bool
  | .mk _ fields => Field.everyOf p fields

/-- Whether members have a property at every depth. -/
def Field.everyOf (p : Field → Bool) : List Field → Bool
  | [] => true
  | .mk name type nullable :: rest =>
    p (.mk name type nullable) && type.every p && Field.everyOf p rest

end

/-- Whether a type has comparisons of its own. -/
def FieldType.isCustom : FieldType → Bool
  | .custom _ => true
  | _ => false

namespace Field

/-- Whether a member may be null if every member of its type may. -/
def isDeclared (f : Field) : Bool := f.nullable || !f.type.admitsNull

/-- What all members of a shape have at every depth, one of them has and so has what is below it. -/
theorem of_everyOf {p : Field → Bool} {fields : List Field} (h : everyOf p fields = true)
    {f : Field} (hf : f ∈ fields) : p f = true ∧ f.type.every p = true := by
  induction fields with
  | nil => cases hf
  | cons first rest ih =>
    obtain ⟨name, type, nullable⟩ := first
    rw [everyOf, Bool.and_eq_true, Bool.and_eq_true] at h
    rcases List.mem_cons.1 hf with rfl | hf
    · exact h.1
    · exact ih h.2 hf

end Field

namespace Accessor

variable {p : Field → Bool}

/-- The last name stands for a member with a property, and so does every name to come. -/
structure Reached.Ends (p : Field → Bool) (r : Reached) : Prop where
  /-- all members below have it -/
  below : r.type.every p = true
  /-- the last name stands for a member that has it -/
  last : ∃ f, p f = true ∧ r.type = f.type ∧ r.nullable = f.nullable

/-- The step: a member that is entered has the property, and so have those below it. -/
theorem Reached.enter_ends (dynamic : ∀ name, p (.mk name .dynamic true) = true)
    {path name : String} {r r' : Reached} (h : r.enter path name = .ok r')
    (hr : r.type.every p = true) : r'.Ends p := by
  rcases enter_eq_ok h with ⟨shape, f, hf, hshape, rfl⟩ | ⟨-, rfl⟩
  · obtain ⟨shapeName, fields⟩ := shape
    rw [hshape, FieldType.every, Shape.every] at hr
    obtain ⟨hp, below⟩ := Field.of_everyOf hr hf
    exact ⟨below, f, hp, rfl, rfl⟩
  · exact ⟨rfl, _, dynamic name, rfl, rfl⟩

/-- A path ends at a member that has a property which all have, and dynamic members that may be
null. -/
theorem ofPath_ends (dynamic : ∀ name, p (.mk name .dynamic true) = true) {shape : Shape}
    {guardNulls : Bool} {path : String} {a : Accessor} (h : ofPath shape guardNulls path = .ok a)
    (hshape : shape.every p = true) :
    ∃ f, p f = true ∧ a.type = f.type ∧ (f.nullable = true → a.nullable = true) := by
  obtain ⟨r, hr, rfl⟩ := ofPath_eq_ok h
  have ends : r.Ends p := by
    cases hnames : Text.parts '.' path with
    | nil => exact absurd (List.map_eq_nil_iff.1 hnames) (Text.splitAll_ne_nil _ _)
    | cons name names =>
      rw [hnames, Reached.enterAll] at hr
      split at hr
      next next hnext =>
        exact Reached.enterAll_induction (P := Reached.Ends p)
          (fun h hr => Reached.enter_ends dynamic h hr.below) hr
          (Reached.enter_ends dynamic hnext hshape)
      next => cases hr
  obtain ⟨f, hp, htype, hnullable⟩ := ends.last
  exact ⟨f, hp, htype, fun h => by rw [hnullable, h, Bool.true_or]⟩

end Accessor

end DataGrid
