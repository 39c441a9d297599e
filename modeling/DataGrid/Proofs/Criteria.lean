import DataGrid.Filter.Custom
import DataGrid.Proofs.Value.Json

/-!
# Criteria and their JSON

Comparisons, negations and groups are all arrays, told apart by their first element: the mark of a
negation, another array, or anything else. `Criteria.isWritable` says when this does not go wrong:
no member is named like the mark, literals are plain, and groups start with a clause.

What is written of such criteria is read as these criteria, to any depth, and compiles like them
(`Criteria.reads_back`).
-/

namespace DataGrid.Criteria

/-- Whether a group has items and starts with a clause. -/
def startsWithClause : List CriteriaItem → Bool
  | .clause _ :: _ => true
  | _ => false

mutual

/-- Whether the JSON of criteria stands for them: no member is named like the mark of a negation,
literals are plain, and every group starts with a clause. -/
def isWritable : Criteria → Bool
  | binary accessor _ value => decide (accessor ≠ negationMark) && value.isPlain
  | negation inner => inner.isWritable
  | group items => startsWithClause items && writableItems items

/-- Whether the JSON of all clauses of a group stands for them. -/
def writableItems : List CriteriaItem → Bool
  | [] => true
  | .clause c :: rest => c.isWritable && writableItems rest
  | .connector _ :: rest => writableItems rest

end

/-- Criteria are written as arrays. -/
theorem exists_toJson_eq_array (c : Criteria) : ∃ items, c.toJson = .array items := by
  cases c with
  | binary accessor operation value => cases operation <;> exact ⟨_, rfl⟩
  | negation inner => exact ⟨_, rfl⟩
  | group items => exact ⟨_, rfl⟩

/-- An array that starts with another word than the mark is a comparison. -/
theorem ofJson_word {word : String} (h : word ≠ negationMark) (rest : List Json) :
    ofJson (.array (.string word :: rest)) = binaryOf (.string word :: rest) := by
  rw [ofJson]
  exact if_neg h

/-- An array that starts with an array is a group. -/
theorem ofJson_array (first rest : List Json) :
    ofJson (.array (.array first :: rest)) = (ofItems (.array first :: rest)).map .group := by
  rw [ofJson]

/-- An array in a group is a clause. -/
theorem ofItems_array {items : List Json} {c : Criteria} (h : ofJson (.array items) = .ok c)
    (rest : List Json) :
    ofItems (.array items :: rest) = (ofItems rest).map (.clause c :: ·) := by
  rw [ofItems]
  simp only [h]

mutual

/-- Criteria are read from their JSON. -/
theorem ofJson_toJson : (c : Criteria) → c.isWritable = true → ofJson c.toJson = .ok c
  | binary accessor operation value, h => by
    obtain ⟨named, plain⟩ := Bool.and_eq_true_iff.1 h
    have named := of_decide_eq_true named
    have literal := Value.ofJson_toJson_of_isPlain plain
    cases operation with
    | none =>
      rw [toJson, ofJson_word named, binaryOf, literal]
      rfl
    | some operation =>
      rw [toJson, ofJson_word named, binaryOf, List.getLast_singleton, literal]
      rfl
  | negation inner, h => by
    rw [toJson, ofJson]
    simp only [if_true]
    rw [ofOperand, ofJson_toJson inner h]
    rfl
  | group items, h => by
    obtain ⟨starts, writable⟩ := Bool.and_eq_true_iff.1 h
    have read := ofItems_itemsToJson items writable
    match items, starts with
    | .clause c :: rest, _ =>
      obtain ⟨elements, hc⟩ := exists_toJson_eq_array c
      rw [itemsToJson, hc] at read
      rw [toJson, itemsToJson, hc, ofJson_array, read]
      rfl

/-- Items are read from their JSON: a clause is an array there, and a connector is a word. -/
theorem ofItems_itemsToJson : (items : List CriteriaItem) → writableItems items = true →
    ofItems (itemsToJson items) = .ok items
  | [], _ => by rw [itemsToJson, ofItems]
  | .clause c :: rest, h => by
    obtain ⟨here, others⟩ := Bool.and_eq_true_iff.1 h
    have read := ofJson_toJson c here
    obtain ⟨elements, hc⟩ := exists_toJson_eq_array c
    rw [hc] at read
    rw [itemsToJson, hc, ofItems_array read, ofItems_itemsToJson rest others]
    rfl
  | .connector token :: rest, h => by
    rw [itemsToJson, ofItems, ofItems_itemsToJson rest h]
    rfl

end

/-- What is written of criteria is read as these criteria, and compiles to the same predicate or
fails with the same error, whatever a session has compiled before. -/
theorem reads_back {c : Criteria} (h : c.isWritable = true) :
    ofJson c.toJson = .ok c ∧ Session.compileJson c.toJson = Session.compile c := by
  have read := ofJson_toJson c h
  refine ⟨read, ?_⟩
  rw [Session.compileJson, read]
  rfl

/-- The literal is an array like a group, and the clauses stand at different depths. -/
theorem reads_back_nested :
    let literal := Value.array [.array [.string "!", .float (.zero true)], .object [("k", .null)]]
    let c := group [
      .clause (negation (group [.clause (binary "a" none literal)])),
      .connector "or",
      .clause (binary "b" (some "!") (.int 3))]
    c.isWritable = true ∧ ofJson c.toJson = .ok c
      ∧ Session.compileJson c.toJson = Session.compile c := by
  intro literal c
  have writable : c.isWritable = true := by decide
  exact ⟨writable, reads_back writable⟩

end DataGrid.Criteria
