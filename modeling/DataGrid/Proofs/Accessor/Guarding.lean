import DataGrid.Proofs.Accessor.Ends
import DataGrid.Proofs.Outcome

/-!
# Paths with nulls guarded and not

* `Outcome.Guards` relates two readings: the first never fails for a null, and the second comes out
  the same or fails for a null. Reading goes on in such pairs (`Guards.bind`).
* A path resolves alike with nulls guarded and not, to accessors that differ in what they say of
  nulls only (`ofPath_alike`). The one guards the other (`read_guards`), also with text steps
  appended.
* If the accessor without guarding tells that no null is read, then the one with guarding reads a
  value of a known type from every record that conforms (`Settled`).
-/

namespace DataGrid

namespace Outcome

variable {α β : Type}

/-- The first reading does not fail for a null, and the second is the first or fails for a null. -/
def Guards (x y : Except ReadError α) : Prop :=
  (∀ path, x ≠ .error (.nullReference path)) ∧ (y = x ∨ ∃ path, y = .error (.nullReference path))

namespace Guards

theorem ok (a : α) : Guards (.ok a) (.ok a) := ⟨fun _ h => (nomatch h), .inl rfl⟩

/-- A guarded reading may give any value where the other one fails for want of a value. -/
theorem fails (a : α) (path : String) : Guards (.ok a) (.error (.nullReference path)) :=
  ⟨fun _ h => (nomatch h), .inr ⟨path, rfl⟩⟩

/-- Readings that go on alike after alike readings are alike. -/
theorem bind {x y : Except ReadError α} {f g : α → Except ReadError β} (h : Guards x y)
    (hfg : ∀ a, Guards (f a) (g a)) : Guards (x.bind f) (y.bind g) := by
  obtain ⟨hx, rfl | ⟨path, rfl⟩⟩ := h
  · cases y with
    | ok a => exact hfg a
    | error e => exact ⟨fun path h => hx path (by cases h; rfl), .inl rfl⟩
  · refine ⟨fun path' h => ?_, .inr ⟨path, rfl⟩⟩
    cases x with
    | ok a => exact (hfg a).1 path' h
    | error e => exact hx path' (by cases h; rfl)

theorem map {x y : Except ReadError α} (f : α → β) (h : Guards x y) :
    Guards (x.map f) (y.map f) := by
  have mapping (z : Except ReadError α) : z.map f = z.bind fun a => .ok (f a) := by cases z <;> rfl
  rw [mapping, mapping]
  exact h.bind fun a => .ok (f a)

end Guards

end Outcome

open Outcome (Alike Guards)

/-- A dynamic type admits null. -/
theorem FieldType.isDynamic_of_admitsNull {t : FieldType} (h : t.admitsNull = false) :
    t.isDynamic = false := by
  cases t <;> first | rfl | exact nomatch h

namespace Accessor

/-- The accessor without the guarding of nulls, and with what is then told of nulls. -/
def unguarded (a : Accessor) (nullable : Bool) : Accessor :=
  { a with nullable := nullable, guardsNulls := false }

theorem forceText_unguarded (a : Accessor) (nullable : Bool) :
    (a.unguarded nullable).forceText = a.forceText.unguarded nullable := by
  rw [forceText, forceText]
  show (if a.type.isText then _ else _) = _
  split <;> rfl

theorem addLower_unguarded (a : Accessor) (nullable : Bool) :
    (a.unguarded nullable).addLower = a.addLower.unguarded nullable := by
  rcases h : a.steps.getLast? with _ | step
  · simp only [addLower, unguarded, h]
  · cases step <;> simp only [addLower, unguarded, h]

/-- The same steps read the same, except where a null is missing. -/
theorem read_guards {a : Accessor} (guards : a.guardsNulls = true) (nullable : Bool)
    (record : Value) : Guards (a.read record) ((a.unguarded nullable).read record) := by
  rw [read_eq, read_eq]
  show Guards (a.ending (Step.reach a.steps record))
    ((a.unguarded nullable).ending (Step.reach a.steps record))
  cases Step.reach a.steps record with
  | value v => exact .ok v
  | missing =>
    rw [ending, ending, onMissing, onMissing, if_pos guards]
    exact .fails Value.null a.path
  | mismatch found =>
    refine ⟨fun path h => ?_, .inl rfl⟩
    cases h

/-- A value of a known type that is not a text can be read from every record that conforms. -/
structure Settled (shape : Shape) (a : Accessor) : Prop where
  /-- its type does not let every member be null -/
  admitsNull : a.type.admitsNull = false
  /-- its type has no comparisons of its own -/
  usual : a.type.isCustom = false
  /-- reading does not fail -/
  reads {record : Value} (h : shape.conforms record = true) : ∃ v, a.read record = .ok v

/-- The first accessor guards nulls and the second does not. They differ in this and in what they
tell of nulls; if the second tells that there are none, then there is a value to read. -/
structure Guarding (shape : Shape) (a b : Accessor) : Prop where
  /-- the first guards nulls -/
  guards : a.guardsNulls = true
  /-- the second is the first but for what it tells of nulls -/
  same : b = a.unguarded b.nullable
  /-- nulls that are read without guarding are read with it -/
  nullable : b.nullable = true → a.nullable = true
  /-- where no nulls are read without guarding there is a value to read -/
  settled : b.nullable = false → a.Settled shape

namespace Guarding

variable {shape : Shape} {a b : Accessor}

/-- Guarding does not change the type of what is read. -/
theorem type_eq (h : Guarding shape a b) : b.type = a.type := by
  rw [h.same]
  rfl

/-- A text may be null, so that nothing is settled of it. -/
theorem addLower (h : Guarding shape a b) (text : a.type.isText = true) :
    Guarding shape a.addLower b.addLower := by
  obtain ⟨-, guards, nullable⟩ := a.addLower_keeps
  obtain ⟨-, -, nullable'⟩ := b.addLower_keeps
  refine ⟨guards.trans h.guards, ?_, fun hb => ?_, fun hb => ?_⟩
  · rw [nullable', ← addLower_unguarded, ← h.same]
  · rw [nullable]
    exact h.nullable (nullable'.symm.trans hb)
  · have admits := (h.settled (nullable'.symm.trans hb)).admitsNull
    cases htype : a.type with
    | string => rw [htype] at admits; cases admits
    | _ => rw [htype] at text; cases text

end Guarding

/-- A path resolves alike with nulls guarded and not. -/
theorem ofPath_alike {shape : Shape} (declared : shape.every Field.isDeclared = true)
    (usual : shape.every (fun f => !f.type.isCustom) = true) (path : String) :
    Alike (Guarding shape) (ofPath shape true path) (ofPath shape false path) := by
  cases ha : ofPath shape true path with
  | error e =>
    have hb : ofPath shape false path = .error e := by
      rw [ofPath] at ha ⊢
      split at ha <;> cases ha
      rfl
    rw [hb]
    exact .error e
  | ok a =>
    obtain ⟨r, hr, rfl⟩ := ofPath_eq_ok ha
    have hb : ofPath shape false path = .ok ⟨path, r.steps, r.type, r.nullable, false⟩ := by
      rw [ofPath, hr]
      simp
    rw [hb]
    refine .ok ⟨rfl, rfl, fun h => ?_, fun h => ?_⟩
    · rw [show r.nullable = true from h, Bool.true_or]
    · obtain ⟨f, hf, htype, hnullable⟩ := ofPath_ends (fun _ => rfl) hb declared
      obtain ⟨g, hg, hgtype, -⟩ := ofPath_ends (fun _ => rfl) hb usual
      have admits : r.type.admitsNull = false := by
        have notNullable : f.nullable = false := by
          rw [Bool.eq_false_iff]
          intro hf
          rw [hnullable hf] at h
          cases h
        rw [Field.isDeclared, notNullable, Bool.false_or, ← htype] at hf
        simpa using hf
      refine ⟨admits, ?_, fun hrecord => ?_⟩
      · rw [← hgtype] at hg
        simpa using hg
      · obtain ⟨v, hv, -⟩ := read_of_conforms ha (FieldType.isDynamic_of_admitsNull admits) hrecord
        exact ⟨v, hv⟩

end Accessor

end DataGrid
