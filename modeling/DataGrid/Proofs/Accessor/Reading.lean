import DataGrid.Accessor.Resolve
import DataGrid.Proofs.Conforming

/-!
# Reading paths

* `Step.reach` follows steps without regard to the guarding of nulls, and `Accessor.ending` says how
  a reading ends (`read_eq`).
* `StepResult.Expected` says what a type and its nullability tell of what is reached. Every name of
  a path keeps it (`Reached.enter_expects`), and so does what makes text of the value and folds its
  case (`forceText_expects`, `addLower_expects`).
* So a record that conforms is read as a value of the type of the accessor, or as a null if the
  accessor is nullable. Reading fails only for a null in front of a step that needs a value, and for
  the kind of a value below a dynamic member (`Accessor.read_sound`).
-/

namespace DataGrid

/-! ### Following steps -/

/-- Goes on from the value that was reached. -/
def StepResult.andThen : StepResult → (Value → StepResult) → StepResult
  | value v, next => next v
  | missing, _ => missing
  | mismatch found, _ => mismatch found

namespace Step

/-- What steps lead to from a value. -/
def reach : List Step → Value → StepResult
  | [], v => .value v
  | step :: rest, v => (step.apply v).andThen (reach rest)

/-- Steps after steps go on from what the first lead to. -/
theorem reach_append (steps steps' : List Step) (v : Value) :
    reach (steps ++ steps') v = (reach steps v).andThen (reach steps') := by
  induction steps generalizing v with
  | nil => rfl
  | cons step rest ih =>
    rw [List.cons_append, reach, reach]
    cases step.apply v with
    | value w => exact ih w
    | missing => rfl
    | mismatch found => rfl

theorem reach_singleton (step : Step) (v : Value) : reach [step] v = step.apply v := by
  rw [reach]
  cases step.apply v <;> rfl

/-- Whether a step makes nothing of a null. -/
def needsValue : Step → Bool
  | member .. | dynamicMember _ | lowercase none => true
  | stringify source | lowercase (some source) => source.admitsNull

/-- A step finds nothing exactly if it needs a value and is given null. -/
theorem apply_eq_missing {step : Step} {v : Value} :
    step.apply v = .missing ↔ v = .null ∧ step.needsValue = true := by
  cases step with
  | member name type nullable => cases v <;> simp [apply, readMember, needsValue]
  | dynamicMember name => cases v <;> simp [apply, readMember, needsValue]
  | stringify source => cases v <;> simp [apply, needsValue]
  | lowercase source => cases source <;> cases v <;> simp [apply, needsValue]

/-- Steps lead to nothing where a null stands in front of one that needs a value. -/
theorem of_reach_eq_missing {steps : List Step} {v : Value} (h : reach steps v = .missing) :
    ∃ before step after, steps = before ++ step :: after
      ∧ reach before v = .value .null ∧ step.needsValue = true := by
  induction steps generalizing v with
  | nil => cases h
  | cons first rest ih =>
    rw [reach] at h
    cases hfirst : first.apply v with
    | value w =>
      rw [hfirst] at h
      obtain ⟨before, step, after, rfl, hbefore, hstep⟩ := ih h
      exact ⟨first :: before, step, after, rfl, by rw [reach, hfirst]; exact hbefore, hstep⟩
    | missing =>
      obtain ⟨rfl, needs⟩ := apply_eq_missing.1 hfirst
      exact ⟨[], first, rest, rfl, rfl, needs⟩
    | mismatch found =>
      rw [hfirst] at h
      cases h

/-- Whether a step makes text. -/
def makesText : Step → Bool
  | stringify _ | lowercase _ => true
  | _ => false

/-- A step that makes text makes one of every value, and of a null at most nothing. -/
theorem apply_of_makesText {step : Step} (h : step.makesText = true) (v : Value) :
    (∃ s, step.apply v = .value (.string s)) ∨ v = .null ∧ step.apply v = .missing := by
  cases step with
  | member name type nullable => cases h
  | dynamicMember name => cases h
  | stringify source => cases v <;> cases hs : source.admitsNull <;> simp [apply, hs]
  | lowercase source =>
    cases source with
    | none => cases v <;> simp [apply]
    | some source => cases v <;> cases hs : source.admitsNull <;> simp [apply, hs]

end Step

namespace Accessor

open Step (reach)

variable (a : Accessor)

/-- How a reading ends. -/
def ending : StepResult → Except ReadError Value
  | .value v => .ok v
  | .missing => a.onMissing
  | .mismatch found => .error (.typeMismatch "object" found)

/-- Steps are followed as far as they reach, and the accessor says how that ends. -/
theorem follow_eq (steps : List Step) (v : Value) :
    a.follow steps v = a.ending (reach steps v) := by
  induction steps generalizing v with
  | nil => rfl
  | cons step rest ih =>
    rw [follow, reach]
    cases step.apply v with
    | value w => exact ih w
    | missing => rfl
    | mismatch found => rfl

theorem read_eq (record : Value) : a.read record = a.ending (reach a.steps record) :=
  a.follow_eq a.steps record

end Accessor

/-! ### What a path tells of what is read -/

/-- What is expected of following steps to a type. -/
inductive StepResult.Expected (steps : List Step) (type : FieldType) (nullable missable : Bool) :
    StepResult → Prop where
  /-- a value of the type, or a null where nulls are expected -/
  | value {v : Value} (admits : type.Admits v) (null : v = .null → nullable = true) :
    Expected steps type nullable missable (.value v)
  /-- nothing, where that is expected -/
  | missing (h : missable = true) : Expected steps type nullable missable .missing
  /-- a value of another kind, below a dynamic member -/
  | mismatch {found : String} (h : ∃ name, Step.dynamicMember name ∈ steps) :
    Expected steps type nullable missable (.mismatch found)

namespace StepResult.Expected

variable {steps steps' : List Step} {type type' : FieldType}
  {nullable nullable' missable missable' : Bool}

/-- What is expected after more steps, if it is expected after them of every value that is expected
before. -/
theorem andThen {r : StepResult} {next : Value → StepResult}
    (h : r.Expected steps type nullable missable)
    (hnext : ∀ v, type.Admits v → (v = .null → nullable = true) →
      (next v).Expected steps' type' nullable' missable')
    (hmissable : missable = true → missable' = true) (hsteps : steps ⊆ steps') :
    (r.andThen next).Expected steps' type' nullable' missable' := by
  cases h with
  | value admits null => exact hnext _ admits null
  | missing h => exact .missing (hmissable h)
  | mismatch h =>
    obtain ⟨name, hname⟩ := h
    exact .mismatch ⟨name, hsteps hname⟩

/-- What is expected stays so if nulls and missing values are allowed besides. -/
theorem mono {r : StepResult} (h : r.Expected steps type nullable missable)
    (hnullable : nullable = true → nullable' = true)
    (hmissable : missable = true → missable' = true) :
    r.Expected steps type nullable' missable' := by
  cases h with
  | value admits null => exact .value admits fun hv => hnullable (null hv)
  | missing h => exact .missing (hmissable h)
  | mismatch h => exact .mismatch h

/-- A step that makes text leads to text, and to nothing only from a null. -/
theorem text {step : Step} (htext : step.makesText = true) {v : Value}
    (null : v = .null → missable = true) :
    (step.apply v).Expected steps .string nullable missable := by
  rcases Step.apply_of_makesText htext v with ⟨s, hs⟩ | ⟨hv, hmissing⟩
  · rw [hs]
    exact .value (.inr rfl) (fun h => nomatch h)
  · rw [hmissing]
    exact .missing (null hv)

end StepResult.Expected

namespace Accessor

open Step (reach)

/-! ### Going on by names -/

namespace Reached

variable {path name : String} {r r' : Reached} {record : Value}

/-- A name leads to a member of a shape, or below a dynamic member. -/
theorem enter_eq_ok (h : r.enter path name = .ok r') :
    (∃ shape, ∃ f ∈ Shape.fields shape, r.type = .object shape
      ∧ r' = ⟨r.steps ++ [.member f.name f.type f.nullable], f.type, f.nullable,
          r.nullableBefore || r.nullable⟩)
    ∨ r.type = .dynamic ∧ r' = ⟨r.steps ++ [.dynamicMember name], .dynamic, true,
        r.nullableBefore || r.nullable⟩ := by
  rw [enter] at h
  split at h
  · cases h
  · split at h
    next shape hshape =>
      split at h
      next f hf =>
        cases h
        exact .inl ⟨shape, f, Shape.field?_mem hf, hshape, rfl⟩
      next => cases h
    next hdynamic =>
      cases h
      exact .inr ⟨hdynamic, rfl⟩
    next => cases h

/-- What is reached from a record is as the names up to there tell. -/
def Expects (r : Reached) (record : Value) : Prop :=
  (reach r.steps record).Expected r.steps r.type r.nullable r.nullableBefore

/-- Whatever is below a dynamic member is dynamic. -/
def KeepsDynamic (r : Reached) : Prop :=
  (∃ name, Step.dynamicMember name ∈ r.steps) → r.type.isDynamic = true

/-- The step: a member that is entered reads what its type says. -/
theorem enter_expects (h : r.enter path name = .ok r') (hr : r.Expects record) :
    r'.Expects record := by
  rcases enter_eq_ok h with ⟨shape, f, hf, hshape, rfl⟩ | ⟨-, rfl⟩
  · rw [Expects, Step.reach_append]
    refine hr.andThen (fun v admits null => ?_) (fun h => by rw [h, Bool.true_or])
      (List.subset_append_left ..)
    rw [Step.reach_singleton]
    rcases admits with rfl | holds
    · -- a null on the way is told of by what is known of the names before
      exact .missing (by rw [null rfl, Bool.or_true])
    · rw [hshape, FieldType.holds] at holds
      obtain ⟨w, hread, hw, hnull⟩ := Shape.admits_member holds hf
      rw [Step.apply, hread]
      exact .value hw hnull
  · rw [Expects, Step.reach_append]
    refine hr.andThen (fun v _ null => ?_) (fun h => by rw [h, Bool.true_or])
      (List.subset_append_left ..)
    rw [Step.reach_singleton, Step.apply]
    cases v with
    | null => exact .missing (by rw [null rfl, Bool.or_true])
    | object members => exact .value (.inr rfl) fun _ => rfl
    | _ => exact .mismatch ⟨name, List.mem_append_right _ (List.mem_singleton_self _)⟩

/-- The step: below a dynamic member all members are dynamic. -/
theorem enter_keepsDynamic (h : r.enter path name = .ok r') (hr : r.KeepsDynamic) :
    r'.KeepsDynamic := by
  rcases enter_eq_ok h with ⟨shape, f, -, hshape, rfl⟩ | ⟨-, rfl⟩
  · rintro ⟨name, hname⟩
    rcases List.mem_append.1 hname with hname | hname
    · have dynamic := hr ⟨name, hname⟩
      rw [hshape] at dynamic
      cases dynamic
    · cases List.mem_singleton.1 hname
  · exact fun _ => rfl

/-- What every name keeps, all names keep. -/
theorem enterAll_induction {P : Reached → Prop} {names : List String}
    (step : ∀ {name r r'}, Reached.enter r path name = .ok r' → P r → P r')
    (h : enterAll path names r = .ok r') (hr : P r) : P r' := by
  induction names generalizing r with
  | nil =>
    cases h
    exact hr
  | cons name names ih =>
    rw [enterAll] at h
    split at h
    next next hnext => exact ih h (step hnext hr)
    next => cases h

end Reached

/-! ### Accessors -/

variable {shape : Shape} {guardNulls : Bool} {path : String} {a : Accessor} {record : Value}

/-- A path resolves by entering its parts one after another. -/
theorem ofPath_eq_ok (h : ofPath shape guardNulls path = .ok a) :
    ∃ r, Reached.enterAll path (Text.parts '.' path) ⟨[], .object shape, false, false⟩ = .ok r
      ∧ a = ⟨path, r.steps, r.type, r.nullable || (guardNulls && r.nullableBefore),
          guardNulls⟩ := by
  rw [ofPath] at h
  split at h
  next r hr =>
    cases h
    exact ⟨r, hr, rfl⟩
  next => cases h

/-- Making a text leaves everything but the steps and the type as it was. -/
theorem forceText_keeps (a : Accessor) : a.forceText.path = a.path
    ∧ a.forceText.guardsNulls = a.guardsNulls ∧ a.forceText.nullable = a.nullable := by
  rw [forceText]
  split <;> exact ⟨rfl, rfl, rfl⟩

/-- Making a text lower-case leaves everything but the steps and the type as it was. -/
theorem addLower_keeps (a : Accessor) : a.addLower.path = a.path
    ∧ a.addLower.guardsNulls = a.guardsNulls ∧ a.addLower.nullable = a.nullable := by
  rw [addLower]
  split <;> exact ⟨rfl, rfl, rfl⟩

/-- What is read from a record is as the type of the accessor and its nullability tell. Unless nulls
are guarded, nothing may be read as well. -/
def Expects (a : Accessor) (record : Value) : Prop :=
  (reach a.steps record).Expected a.steps a.type a.nullable (a.nullable || !a.guardsNulls)

/-- The accessor of a path reads what its type says, of records that conform to the shape. -/
theorem ofPath_expects (h : ofPath shape guardNulls path = .ok a)
    (hrecord : shape.conforms record = true) : a.Expects record := by
  obtain ⟨r, hr, rfl⟩ := ofPath_eq_ok h
  have start : Reached.Expects ⟨[], .object shape, false, false⟩ record :=
    .value (.inr (by rwa [FieldType.holds])) (by rintro rfl; cases shape; cases hrecord)
  refine (Reached.enterAll_induction (P := (·.Expects record)) Reached.enter_expects hr start).mono
    (fun null => by rw [null, Bool.true_or]) (fun before => ?_)
  cases guardNulls <;> simp [before]

/-- One more step that makes text reads text, and nothing only where a null was read. -/
theorem Expects.append {step : Step} (text : step.makesText = true) (h : a.Expects record) :
    Expects { a with steps := a.steps ++ [step], type := .string } record := by
  rw [Expects, Step.reach_append]
  refine StepResult.Expected.andThen h (fun v _ null => ?_) id (List.subset_append_left ..)
  rw [Step.reach_singleton]
  exact .text text fun hv => by rw [null hv, Bool.true_or]

theorem forceText_expects (h : a.Expects record) : a.forceText.Expects record := by
  rw [forceText]
  split
  · exact h
  · exact h.append rfl

theorem addLower_expects (h : a.Expects record) : a.addLower.Expects record := by
  rw [addLower]
  split
  next source hlast =>
    obtain ⟨before, hsteps⟩ := List.getLast?_eq_some_iff.1 hlast
    rw [Expects, hsteps, Step.reach_append] at h
    rw [Expects, hsteps, List.dropLast_concat, Step.reach_append]
    cases hbefore : reach before record with
    | value v =>
      -- the text step that is swallowed needs a value just where the folding does
      rw [hbefore, StepResult.andThen, Step.reach_singleton] at h
      rw [StepResult.andThen, Step.reach_singleton]
      have folds : (Step.lowercase (some source)).makesText = true := rfl
      rcases Step.apply_of_makesText folds v with ⟨s, hs⟩ | ⟨rfl, hmissing⟩
      · rw [hs]
        exact .value (.inr rfl) (fun h => nomatch h)
      · rw [hmissing]
        have needs : (Step.stringify source).needsValue = true :=
          (Step.apply_eq_missing.1 hmissing).2
        rw [Step.apply_eq_missing.2 ⟨rfl, needs⟩] at h
        cases h with
        | missing missable => exact .missing missable
    | missing =>
      rw [hbefore] at h
      cases h with
      | missing missable => exact .missing missable
    | mismatch found =>
      rw [hbefore] at h
      cases h with
      | mismatch below =>
        obtain ⟨name, hname⟩ := below
        rcases List.mem_append.1 hname with hname | hname
        · exact .mismatch ⟨name, List.mem_append_left _ hname⟩
        · cases List.mem_singleton.1 hname
  next => exact h.append rfl

namespace Expects

/-- What is read is a value of the type, and null only if the accessor says so. -/
theorem of_read_eq_ok (h : a.Expects record) {v : Value} (hv : a.read record = .ok v) :
    a.type.Admits v ∧ (v = .null → a.nullable = true) := by
  rw [read_eq] at hv
  rw [Expects] at h
  cases hreach : reach a.steps record with
  | value w =>
    rw [hreach] at h hv
    cases hv
    cases h with
    | value admits null => exact ⟨admits, null⟩
  | missing =>
    rw [hreach, ending, onMissing] at hv
    rw [hreach] at h
    cases hguards : a.guardsNulls with
    | true =>
      rw [hguards] at hv
      cases hv
      cases h with
      | missing missable => exact ⟨.inl rfl, fun _ => by simpa [hguards] using missable⟩
    | false =>
      rw [hguards] at hv
      cases hv
  | mismatch found =>
    rw [hreach] at hv
    cases hv

/-- A reading fails at a null that a step needs, or at a dynamic member of what is no record. -/
theorem of_read_eq_error (h : a.Expects record) {e : ReadError} (he : a.read record = .error e) :
    e = .nullReference a.path ∧ a.guardsNulls = false
      ∧ (∃ before step after, a.steps = before ++ step :: after
        ∧ a.follow before record = .ok .null ∧ step.needsValue = true)
    ∨ (∃ found, e = .typeMismatch "object" found) ∧ ∃ name, .dynamicMember name ∈ a.steps := by
  rw [read_eq] at he
  rw [Expects] at h
  cases hreach : reach a.steps record with
  | value w =>
    rw [hreach] at he
    cases he
  | missing =>
    rw [hreach, ending, onMissing] at he
    cases hguards : a.guardsNulls with
    | true =>
      rw [hguards] at he
      cases he
    | false =>
      rw [hguards] at he
      cases he
      obtain ⟨before, step, after, hsteps, hbefore, hstep⟩ := Step.of_reach_eq_missing hreach
      exact .inl ⟨rfl, rfl, before, step, after, hsteps, by rw [follow_eq, hbefore, ending], hstep⟩
  | mismatch found =>
    rw [hreach] at h he
    cases he
    cases h with
    | mismatch below => exact .inr ⟨⟨found, rfl⟩, below⟩

end Expects

/-- A path of a known type can be read from every record that conforms, and a value of that type or
a null is read. -/
theorem read_of_conforms (h : ofPath shape true path = .ok a) (htype : a.type.isDynamic = false)
    (hrecord : shape.conforms record = true) : ∃ v, a.read record = .ok v ∧ a.type.Admits v := by
  have expects := ofPath_expects h hrecord
  cases hread : a.read record with
  | ok v => exact ⟨v, rfl, (expects.of_read_eq_ok hread).1⟩
  | error e =>
    obtain ⟨r, hr, rfl⟩ := ofPath_eq_ok h
    rcases expects.of_read_eq_error hread with ⟨-, unguarded, -⟩ | ⟨-, below⟩
    · cases unguarded
    · have keeps := Reached.enterAll_induction (P := Reached.KeepsDynamic)
        Reached.enter_keepsDynamic hr fun ⟨_, h⟩ => nomatch h
      rw [keeps below] at htype
      cases htype

/-- An accessor of a path, with what makes text and folds case appended any number of times. -/
inductive Prepared (shape : Shape) (guardNulls : Bool) (path : String) : Accessor → Prop where
  /-- as the path resolves -/
  | resolved {a : Accessor} (h : ofPath shape guardNulls path = .ok a) :
    Prepared shape guardNulls path a
  /-- with what makes text -/
  | forceText {a : Accessor} (h : Prepared shape guardNulls path a) :
    Prepared shape guardNulls path a.forceText
  /-- with what folds case -/
  | addLower {a : Accessor} (h : Prepared shape guardNulls path a) :
    Prepared shape guardNulls path a.addLower

namespace Prepared

/-- What is appended leaves the path and the setting as they are. -/
theorem unchanged (h : Prepared shape guardNulls path a) :
    a.path = path ∧ a.guardsNulls = guardNulls := by
  induction h with
  | resolved h =>
    obtain ⟨r, -, rfl⟩ := ofPath_eq_ok h
    exact ⟨rfl, rfl⟩
  | @forceText a _ ih =>
    obtain ⟨hpath, hguards, -⟩ := a.forceText_keeps
    exact ⟨hpath.trans ih.1, hguards.trans ih.2⟩
  | @addLower a _ ih =>
    obtain ⟨hpath, hguards, -⟩ := a.addLower_keeps
    exact ⟨hpath.trans ih.1, hguards.trans ih.2⟩

/-- However an accessor was prepared, it reads what its type says. -/
theorem expects (h : Prepared shape guardNulls path a) (hrecord : shape.conforms record = true) :
    a.Expects record := by
  induction h with
  | resolved h => exact ofPath_expects h hrecord
  | forceText _ ih => exact forceText_expects ih
  | addLower _ ih => exact addLower_expects ih

end Prepared

/-- What is read from a record that conforms is a value of the type of the accessor, or a null if
the accessor is nullable. Reading fails only for a null in front of a step that needs a value,
unless nulls are guarded, and for a value of another kind if the path goes on below a dynamic
member. -/
theorem read_sound (h : Prepared shape guardNulls path a) (hrecord : shape.conforms record = true) :
    (∀ v, a.read record = .ok v → a.type.Admits v ∧ (v = .null → a.nullable = true))
    ∧ ∀ e, a.read record = .error e →
        e = .nullReference path ∧ guardNulls = false
          ∧ (∃ before step after, a.steps = before ++ step :: after
            ∧ a.follow before record = .ok .null ∧ step.needsValue = true)
        ∨ (∃ found, e = .typeMismatch "object" found)
          ∧ ∃ name, .dynamicMember name ∈ a.steps := by
  obtain ⟨rfl, rfl⟩ := h.unchanged
  have expects := h.expects hrecord
  exact ⟨fun _ => expects.of_read_eq_ok, fun _ => expects.of_read_eq_error⟩

/-- A number below a null is read as folded text, and cannot be read where the null stands. -/
theorem read_sound_below_null :
    let address := Shape.mk "Address" [Field.plain "zip" .int32]
    let shape := Shape.mk "Customer"
      [Field.plain "age" .int32, Field.plain "address" (.object address)]
    let a : Accessor := {
      path := "address.zip"
      steps := [.member "address" (.object address) true, .member "zip" .int32 false,
        .lowercase (some .int32)]
      type := .string
      nullable := false
      guardsNulls := false }
    let home : Value := .object [("address", .object [("zip", .int 7)]), ("age", .int 36)]
    let away : Value := .object [("age", .int 41)]
    Prepared shape false "address.zip" a ∧ shape.conforms home = true
      ∧ shape.conforms away = true
      ∧ a.read home = .ok (.string "7") ∧ a.type.Admits (.string "7")
      ∧ a.read away = .error (.nullReference "address.zip")
      ∧ ∃ before step after, a.steps = before ++ step :: after
          ∧ a.follow before away = .ok .null ∧ step.needsValue = true := by
  intro address shape a home away
  have prepared : Prepared shape false "address.zip" a := by
    have resolved : ofPath shape false "address.zip"
        = .ok ⟨"address.zip", a.steps.dropLast, .int32, false, false⟩ := by rfl
    exact .addLower (.forceText (.resolved resolved))
  have hhome : shape.conforms home = true := by rfl
  have haway : shape.conforms away = true := by rfl
  have reads : a.read home = .ok (.string "7") := by rfl
  have fails : a.read away = .error (.nullReference "address.zip") := by rfl
  refine ⟨prepared, hhome, haway, reads, ((read_sound prepared hhome).1 _ reads).1, fails, ?_⟩
  rcases (read_sound prepared haway).2 _ fails with ⟨-, -, null⟩ | ⟨⟨found, other⟩, -⟩
  · exact null
  · cases other

end Accessor

end DataGrid
