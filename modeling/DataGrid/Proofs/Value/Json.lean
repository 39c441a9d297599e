import DataGrid.Value.Text

/-!
# Reading back the tree of a value

A JSON tree has no moments, spans or identifiers, and no doubles that are not finite: they are
written as texts and as nulls. `Value.written` is the value with these put in place, at every depth.

* What the tree of a value gives is the value as it is written (`ofJson_toJson`).
* A plain value holds nothing that has to be replaced, so it is read back as it is
  (`ofJson_toJson_of_isPlain`).
-/

namespace DataGrid.Value

mutual

/-- The value with texts in place of moments, spans and identifiers, and nulls in place of doubles
that are not finite. -/
def written : Value → Value
  | null => null
  | bool b => bool b
  | int i => int i
  | float x => if x.isFinite then float x else null
  | string s => string s
  | dateTime d => string (dateTime d).text
  | span a => string (span a).text
  | uuid u => string (uuid u).text
  | array items => array (writtenItems items)
  | object members => object (writtenMembers members)

/-- The values of a list as they are written. -/
def writtenItems : List Value → List Value
  | [] => []
  | v :: rest => v.written :: writtenItems rest

/-- Named values as they are written. -/
def writtenMembers : List (String × Value) → List (String × Value)
  | [] => []
  | (k, v) :: rest => (k, v.written) :: writtenMembers rest

end

mutual

/-- Whether a value holds no moment, span or identifier and no double that is not finite, at any
depth. -/
def isPlain : Value → Bool
  | null | bool _ | int _ | string _ => true
  | float x => x.isFinite
  | dateTime _ | span _ | uuid _ => false
  | array items => plainItems items
  | object members => plainMembers members

/-- Whether all values of a list are plain. -/
def plainItems : List Value → Bool
  | [] => true
  | v :: rest => v.isPlain && plainItems rest

/-- Whether all named values are plain. -/
def plainMembers : List (String × Value) → Bool
  | [] => true
  | (_, v) :: rest => v.isPlain && plainMembers rest

end

mutual

/-- The tree of a value gives the value as it is written. -/
theorem ofJson_toJson : (v : Value) → ofJson v.toJson = v.written
  | null | bool _ | string _ | dateTime _ | span _ | uuid _ => rfl
  | int i => by rw [toJson, ofJson, Integer.narrow?_toInt, written]
  | float x => by
    rw [toJson, written]
    split <;> rfl
  | array items => by rw [toJson, ofJson, ofItems_itemsToJson items, written]
  | object members => by rw [toJson, ofJson, ofMembers_membersToJson members, written]

/-- Items are read back as they were written. -/
theorem ofItems_itemsToJson : (items : List Value) →
    ofItems (itemsToJson items) = writtenItems items
  | [] => rfl
  | v :: rest => by
    rw [itemsToJson, ofItems, ofJson_toJson v, ofItems_itemsToJson rest, writtenItems]

theorem ofMembers_membersToJson : (members : List (String × Value)) →
    ofMembers (membersToJson members) = writtenMembers members
  | [] => rfl
  | (k, v) :: rest => by
    rw [membersToJson, ofMembers, ofJson_toJson v, ofMembers_membersToJson rest, writtenMembers]

end

mutual

/-- Nothing in a plain value has to be replaced. -/
theorem written_of_isPlain : (v : Value) → v.isPlain = true → v.written = v
  | null, _ | bool _, _ | int _, _ | string _, _ => rfl
  | float x, h => by
    rw [isPlain] at h
    rw [written, if_pos h]
  | dateTime _, h | span _, h | uuid _, h => by cases h
  | array items, h => by rw [written, writtenItems_of_plainItems items h]
  | object members, h => by rw [written, writtenMembers_of_plainMembers members h]

/-- Plain items are written as they are. -/
theorem writtenItems_of_plainItems : (items : List Value) → plainItems items = true →
    writtenItems items = items
  | [], _ => rfl
  | v :: rest, h => by
    obtain ⟨here, others⟩ := Bool.and_eq_true_iff.1 h
    rw [writtenItems, written_of_isPlain v here, writtenItems_of_plainItems rest others]

theorem writtenMembers_of_plainMembers : (members : List (String × Value)) →
    plainMembers members = true → writtenMembers members = members
  | [], _ => rfl
  | (k, v) :: rest, h => by
    obtain ⟨here, others⟩ := Bool.and_eq_true_iff.1 h
    rw [writtenMembers, written_of_isPlain v here, writtenMembers_of_plainMembers rest others]

end

/-- A plain value is read back from its JSON. -/
theorem ofJson_toJson_of_isPlain {v : Value} (h : v.isPlain = true) : ofJson v.toJson = v :=
  (ofJson_toJson v).trans (written_of_isPlain v h)

end DataGrid.Value
