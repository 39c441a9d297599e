import DataGrid.Proofs.Accessor.Reading
import DataGrid.Proofs.Outcome

/-!
# Folding the case of what was made text

`Accessor.addLower` takes a text step at the end of an accessor away, and its own step makes the
text again before it folds the case.

* `Step.apply_fused`: of every value the one step makes what the text step and a plain folding step
  behind it make of it.
* So an accessor whose text is folded is read as its text is, with the text in lower case
  (`Accessor.read_fused`). This holds of every record, whether it conforms or not.
-/

namespace DataGrid

/-- What becomes of a value that was made text when its case is folded. -/
inductive Value.Folded : Value → Value → Prop where
  /-- a null stays -/
  | null : Folded .null .null
  /-- a text is put into lower case -/
  | text (s : String) : Folded (.string s) (.string (Text.lowerCase s))

namespace Step

/-- The step that makes text and folds its case does what the two steps do one after the other. -/
theorem apply_fused (source : FieldType) (v : Value) : (lowercase (some source)).apply v
    = ((stringify source).apply v).andThen (lowercase none).apply := by
  cases v with
  | null => cases h : source.admitsNull <;> simp [apply, h, StepResult.andThen, Text.lowerCase,
      Text.lowerAfter]
  | string s => cases source <;> rfl
  | _ => rfl

/-- Lowering the text of a type in one step is as good as two steps, wherever it is done. -/
theorem reach_fused (steps : List Step) (source : FieldType) (v : Value) :
    reach (steps ++ [lowercase (some source)]) v
      = (reach (steps ++ [stringify source]) v).andThen (lowercase none).apply := by
  rw [reach_append, reach_append]
  cases reach steps v with
  | value w =>
    rw [StepResult.andThen, StepResult.andThen, reach_singleton, reach_singleton]
    exact apply_fused source w
  | missing => rfl
  | mismatch found => rfl

/-- Behind a text step there is a text, or nothing. -/
theorem reach_stringify (steps : List Step) (source : FieldType) (v : Value) :
    (∃ s, reach (steps ++ [stringify source]) v = .value (.string s))
    ∨ reach (steps ++ [stringify source]) v = .missing
    ∨ ∃ found, reach (steps ++ [stringify source]) v = .mismatch found := by
  rw [reach_append]
  cases reach steps v with
  | value w =>
    rw [StepResult.andThen, reach_singleton]
    have makes : (stringify source).makesText = true := rfl
    rcases apply_of_makesText makes w with text | ⟨-, missing⟩
    · exact .inl text
    · exact .inr (.inl missing)
  | missing => exact .inr (.inl rfl)
  | mismatch found => exact .inr (.inr ⟨found, rfl⟩)

end Step

namespace Accessor

open Outcome (Alike)

variable {a : Accessor}

/-- What is no text becomes one in one step at the end. -/
theorem forceText_eq (h : a.type.isText = false) :
    a.forceText = { a with steps := a.steps ++ [.stringify a.type], type := .string } := by
  rw [forceText, h, if_neg Bool.false_ne_true]

/-- The step at the end that makes the text is replaced by one that makes it lower-case. -/
theorem addLower_forceText_eq (h : a.type.isText = false) : a.forceText.addLower
    = { a with steps := a.steps ++ [.lowercase (some a.type)], type := .string } := by
  rw [forceText_eq h, addLower]
  simp only [List.getLast?_concat, List.dropLast_concat]

/-- Where the type is no text, folding the case takes the place of making text, and is read as what
is made text: with the same error if that cannot be read, with a null if that is null, and otherwise
with its text in lower case. -/
theorem read_fused (h : a.type.isText = false) (record : Value) :
    a.forceText.steps = a.steps ++ [.stringify a.type]
      ∧ a.forceText.addLower.steps = a.steps ++ [.lowercase (some a.type)]
      ∧ Alike Value.Folded (a.forceText.read record) (a.forceText.addLower.read record) := by
  rw [addLower_forceText_eq h, forceText_eq h]
  refine ⟨rfl, rfl, ?_⟩
  rw [read_eq, read_eq, Step.reach_fused]
  rcases Step.reach_stringify a.steps a.type record with ⟨s, hs⟩ | hs | ⟨found, hs⟩
  · rw [hs]
    exact .ok (.text s)
  · rw [hs]
    show Alike _ a.onMissing a.onMissing
    rw [onMissing]
    split
    · exact .ok .null
    · exact .error _
  · rw [hs]
    exact .error _

/-- The status of an order, a named number: known, missing, and below what is no order. -/
theorem read_fused_status :
    let status : FieldType := .enum ⟨"Status", [("Active", 1), ("Lapsed", 2)]⟩
    let order := Shape.mk "Order" [Field.plain "status" status]
    let a : Accessor := {
      path := "order.status"
      steps := [.member "order" (.object order) true, .member "status" status false]
      type := status
      nullable := true
      guardsNulls := true }
    let lapsed : Value := .object [("order", .object [("status", .int 2)])]
    let absent : Value := .object []
    let wrong : Value := .object [("order", .int 2)]
    a.type.isText = false
      ∧ a.forceText.read lapsed = .ok (.string "Lapsed")
      ∧ a.forceText.addLower.read lapsed = .ok (.string "lapsed")
      ∧ a.forceText.addLower.read absent = .ok .null
      ∧ a.forceText.addLower.read wrong = .error (.typeMismatch "object" "int")
      ∧ ∀ record ∈ [lapsed, absent, wrong],
        Alike Value.Folded (a.forceText.read record) (a.forceText.addLower.read record) := by
  intro status order a lapsed absent wrong
  have known : a.type.isText = false := rfl
  have lower : Text.lowerCase "Lapsed" = "lapsed" := by decide
  have folded : a.forceText.addLower.read lapsed = .ok (.string "lapsed") := by
    rw [← lower]
    rfl
  exact ⟨known, by rfl, folded, by rfl, by rfl, fun record _ => (read_fused known record).2.2⟩

end Accessor

end DataGrid
