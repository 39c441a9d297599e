import DataGrid.Proofs.Accessor.Reading

/-!
# Values at paths

* `Shape.valueAt` is the value that a record has at a path, and `Shape.PathIs` says that the type of
  a path has a property.
* In records that conform to a shape, what stands at a path of an exact type is exact
  (`isExact_valueAt`), and what stands at a path of integers is an integer or a null
  (`int_valueAt`).
-/

namespace DataGrid

namespace Shape

variable {shape : Shape} {path : String} {a : Accessor} {record : Value}

/-- The value that a record has at a path, a null where nothing can be read. -/
def valueAt (shape : Shape) (path : String) (record : Value) : Value :=
  match Accessor.ofPath shape true path with
  | .ok a => (a.read record).toOption.getD .null
  | .error _ => .null

/-- The type of a path, if it leads anywhere, has a property. -/
def PathIs (shape : Shape) (p : FieldType → Bool) (path : String) : Prop :=
  ∀ a, Accessor.ofPath shape true path = .ok a → p a.type = true

instance (p : FieldType → Bool) : Decidable (shape.PathIs p path) :=
  match h : Accessor.ofPath shape true path with
  | .ok a => decidable_of_iff (p a.type = true)
      ⟨fun hp _ hb => Except.ok.inj (h.symm.trans hb) ▸ hp, fun hp => hp a h⟩
  | .error _ => isTrue fun _ ha => nomatch h.symm.trans ha

/-- An accessor that guards nulls reads the value at its path, which is one of its type. -/
theorem read_eq_valueAt (h : Accessor.ofPath shape true path = .ok a)
    (htype : a.type.isDynamic = false) (hrecord : shape.conforms record = true) :
    a.read record = .ok (shape.valueAt path record)
      ∧ a.type.Admits (shape.valueAt path record) := by
  obtain ⟨v, hread, hv⟩ := Accessor.read_of_conforms h htype hrecord
  have hvalue : shape.valueAt path record = v := by simp [valueAt, h, hread, Except.toOption]
  rw [hvalue]
  exact ⟨hread, hv⟩

/-- What stands at a path of an exact type is exact. -/
theorem isExact_valueAt (htype : shape.PathIs FieldType.isExact path)
    (hrecord : shape.conforms record = true) : (shape.valueAt path record).isExact = true := by
  cases h : Accessor.ofPath shape true path with
  | error e => simp [valueAt, h, Value.isExact]
  | ok a =>
    have exact := htype a h
    obtain ⟨-, null | hv⟩ :=
      read_eq_valueAt h (FieldType.isDynamic_of_isExact exact) hrecord
    · rw [null]
      rfl
    · exact FieldType.exact_of_holds exact hv

/-- What stands at a path of integers is an integer or a null. -/
theorem int_valueAt (htype : shape.PathIs FieldType.isInteger path)
    (hrecord : shape.conforms record = true) :
    shape.valueAt path record = .null ∨ ∃ i, shape.valueAt path record = .int i := by
  cases h : Accessor.ofPath shape true path with
  | error e => simp [valueAt, h]
  | ok a =>
    have integer := htype a h
    obtain ⟨-, null | hv⟩ := read_eq_valueAt h
      (FieldType.isDynamic_of_isExact (FieldType.isExact_of_isInteger integer)) hrecord
    · exact .inl null
    · exact .inr (FieldType.int_of_holds integer hv)

/-- Values at a path of an exact type are exact. -/
theorem isExact_valuesAt {records : List Value} (htype : shape.PathIs FieldType.isExact path)
    (conform : ∀ r ∈ records, shape.conforms r = true) :
    ∀ v ∈ records.map (shape.valueAt path), v.isExact = true := by
  intro v hv
  obtain ⟨r, hr, rfl⟩ := List.mem_map.1 hv
  exact isExact_valueAt htype (conform r hr)

/-- Values at a path of integers are integers and nulls. -/
theorem int_valuesAt {records : List Value} (htype : shape.PathIs FieldType.isInteger path)
    (conform : ∀ r ∈ records, shape.conforms r = true) :
    ∀ v ∈ records.map (shape.valueAt path), v = .null ∨ ∃ i, v = .int i := by
  intro v hv
  obtain ⟨r, hr, rfl⟩ := List.mem_map.1 hv
  exact int_valueAt htype (conform r hr)

end Shape

end DataGrid
