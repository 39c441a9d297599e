import DataGrid.Proofs.Value.Json

/-!
# Two ways to the tree of a value

`Value.toJson` builds the tree of a value itself, and `Value.encode` leaves what becomes of each
kind to an encoder.

* `Encoder.Agrees e f` says that an encoder makes of each kind what `f` makes of the tree of that
  kind. It then makes of a value what `f` makes of its tree (`encode_eq`): the encoder of trees
  makes this tree, and the encoder of texts its text.
* A value is read back from its tree as it is exactly if it is plain (`written_eq_iff`).
* `encode_reads_back` puts both together.
* Two trees give one value exactly if they differ at most in how integers beyond 64 bits are written
  (`ofJson_eq_iff`).
-/

namespace DataGrid

/-- An encoder makes of each kind of value what a function makes of its tree. -/
structure Encoder.Agrees {α : Type} (e : Encoder α) (f : Json → α) : Prop where
  /-- of the null literal -/
  null : e.null = f .null
  /-- of a truth value -/
  bool (b : Bool) : e.bool b = f (.bool b)
  /-- of an integer -/
  int (n : Int) : e.int n = f (.int n)
  /-- of a double, which has a tree if it is finite -/
  float (x : Binary64) : e.float x = f (if x.isFinite then .float x else .null)
  /-- of a string -/
  string (s : String) : e.string s = f (.string s)
  /-- of an array, item by item -/
  array (items : List Json) : e.array (items.map f) = f (.array items)
  /-- of an object, member by member -/
  object (members : List (String × Json)) :
    e.object (members.map fun member => (member.1, f member.2)) = f (.object members)

namespace Json

theorem renderItems_eq_map (items : List Json) : renderItems items = items.map render := by
  induction items with
  | nil => rfl
  | cons item rest ih => rw [renderItems, ih, List.map_cons]

theorem renderMembers_eq_map (members : List (String × Json)) :
    renderMembers members = members.map fun member => (member.1, member.2.render) := by
  induction members with
  | nil => rfl
  | cons member rest ih => rw [renderMembers, ih, List.map_cons]

end Json

namespace Encoder

/-- What the encoder of trees gives is the JSON itself. -/
theorem agrees_tree : tree.Agrees id where
  null := rfl
  bool _ := rfl
  int _ := rfl
  float _ := rfl
  string _ := rfl
  array items := by rw [List.map_id]; rfl
  object members := by
    show Json.object (members.map id) = _
    rw [List.map_id]
    rfl

/-- What the encoder of texts gives is the JSON, rendered. -/
theorem agrees_text : text.Agrees Json.render where
  null := rfl
  bool _ := rfl
  int _ := rfl
  float x := by
    show Json.floatText x = _
    cases h : x.isFinite with
    | true => rfl
    | false =>
      rw [Json.floatText, h]
      rfl
  string _ := rfl
  array items := by
    rw [Json.render, Json.renderItems_eq_map]
    rfl
  object members := by
    rw [Json.render, Json.renderMembers_eq_map]
    rfl

end Encoder

namespace Value

section Agrees

variable {α : Type} {e : Encoder α} {f : Json → α}

mutual

/-- An encoder makes of a value what is made of its tree. -/
theorem encode_eq (agrees : e.Agrees f) : (v : Value) → v.encode e = f v.toJson
  | null => agrees.null
  | bool b => agrees.bool b
  | int i => agrees.int i.toInt
  | float x => agrees.float x
  | string s => agrees.string s
  | dateTime d => agrees.string (dateTime d).text
  | span a => agrees.string (span a).text
  | uuid u => agrees.string (uuid u).text
  | array items => by rw [encode, encodeItems_eq agrees items, agrees.array, toJson]
  | object members => by rw [encode, encodeMembers_eq agrees members, agrees.object, toJson]

/-- Items are encoded as the JSON of them is, one by one. -/
theorem encodeItems_eq (agrees : e.Agrees f) : (items : List Value) →
    encodeItems e items = (itemsToJson items).map f
  | [] => rfl
  | v :: rest => by
    rw [encodeItems, itemsToJson, List.map_cons, encode_eq agrees v, encodeItems_eq agrees rest]

theorem encodeMembers_eq (agrees : e.Agrees f) : (members : List (String × Value)) →
    encodeMembers e members = (membersToJson members).map fun member => (member.1, f member.2)
  | [] => rfl
  | (k, v) :: rest => by
    rw [encodeMembers, membersToJson, List.map_cons, encode_eq agrees v,
      encodeMembers_eq agrees rest]

end

end Agrees

mutual

/-- A value in which nothing has to be replaced is plain. -/
theorem isPlain_of_written : (v : Value) → v.written = v → v.isPlain = true
  | null, _ | bool _, _ | int _, _ | string _, _ => rfl
  | float x, h => by
    rw [written] at h
    split at h
    · assumption
    · cases h
  | dateTime _, h | span _, h | uuid _, h => by cases h
  | array items, h => plainItems_of_writtenItems items (array.inj h)
  | object members, h => plainMembers_of_writtenMembers members (object.inj h)

/-- Items that are written as they are are plain. -/
theorem plainItems_of_writtenItems : (items : List Value) → writtenItems items = items →
    plainItems items = true
  | [], _ => rfl
  | v :: rest, h => by
    obtain ⟨here, others⟩ := List.cons.inj h
    rw [plainItems, isPlain_of_written v here, plainItems_of_writtenItems rest others]
    rfl

theorem plainMembers_of_writtenMembers : (members : List (String × Value)) →
    writtenMembers members = members → plainMembers members = true
  | [], _ => rfl
  | (k, v) :: rest, h => by
    obtain ⟨here, others⟩ := List.cons.inj h
    rw [plainMembers, isPlain_of_written v (Prod.mk.inj here).2,
      plainMembers_of_writtenMembers rest others]
    rfl

end

/-- A value is written as it is exactly if it is plain. -/
theorem written_eq_iff {v : Value} : v.written = v ↔ v.isPlain = true :=
  ⟨isPlain_of_written v, written_of_isPlain v⟩

/-- Encoding a value as a tree, or as the text of one, is writing its tree. What is read from this
tree is the value with texts in place of moments, spans and identifiers and nulls in place of
doubles that are not finite; so it is the value itself exactly if there are none of these. -/
theorem encode_reads_back (v : Value) :
    v.encode .tree = v.toJson ∧ v.encode .text = v.toJson.render
      ∧ ofJson v.toJson = v.written ∧ (ofJson v.toJson = v ↔ v.isPlain = true) := by
  refine ⟨encode_eq Encoder.agrees_tree v, encode_eq Encoder.agrees_text v, ofJson_toJson v, ?_⟩
  rw [ofJson_toJson]
  exact written_eq_iff

end Value

/-! ### Trees of one value -/

/-- Builds a tree with every double as it is. -/
def Encoder.exact : Encoder Json := { Encoder.tree with float := .float }

namespace Json

mutual

/-- The tree with doubles in place of the integers that are no words with sign. -/
def widened : Json → Json
  | .int n => if (Integer.narrow? n).isSome then .int n else .float (Binary64.ofInt n)
  | .array items => .array (widenedItems items)
  | .object members => .object (widenedMembers members)
  | other => other

/-- The items of an array with such doubles. -/
def widenedItems : List Json → List Json
  | [] => []
  | item :: rest => item.widened :: widenedItems rest

/-- The members of an object with such doubles. -/
def widenedMembers : List (String × Json) → List (String × Json)
  | [] => []
  | (key, value) :: rest => (key, value.widened) :: widenedMembers rest

end

end Json

namespace Value

mutual

/-- The tree of a value that was read has doubles in place of some integers. -/
theorem encode_ofJson : (j : Json) → (ofJson j).encode .exact = j.widened
  | .null | .bool _ | .float _ | .string _ => rfl
  | .int n => by
    rw [ofJson, Json.widened]
    cases h : Integer.narrow? n with
    | none => rfl
    | some i =>
      obtain rfl := Integer.narrow?_eq_some_iff.1 h
      rfl
  | .array items => by
    rw [ofJson, encode, encodeItems_ofItems items, Json.widened]
    rfl
  | .object members => by
    rw [ofJson, encode, encodeMembers_ofMembers members, Json.widened]
    rfl

/-- JSON that is read and encoded again is the same JSON, with its integers widened. -/
theorem encodeItems_ofItems : (items : List Json) →
    encodeItems .exact (ofItems items) = Json.widenedItems items
  | [] => rfl
  | item :: rest => by
    rw [ofItems, encodeItems, encode_ofJson item, encodeItems_ofItems rest, Json.widenedItems]

theorem encodeMembers_ofMembers : (members : List (String × Json)) →
    encodeMembers .exact (ofMembers members) = Json.widenedMembers members
  | [] => rfl
  | (key, value) :: rest => by
    rw [ofMembers, encodeMembers, encode_ofJson value, encodeMembers_ofMembers rest,
      Json.widenedMembers]

end

mutual

/-- Such doubles are the values of the integers. -/
theorem ofJson_widened : (j : Json) → ofJson j.widened = ofJson j
  | .null | .bool _ | .float _ | .string _ => rfl
  | .int n => by
    rw [Json.widened, ofJson]
    cases h : Integer.narrow? n with
    | none => rfl
    | some i =>
      show ofJson (.int n) = _
      rw [ofJson, h]
  | .array items => by rw [Json.widened, ofJson, ofJson, ofItems_widenedItems items]
  | .object members => by rw [Json.widened, ofJson, ofJson, ofMembers_widenedMembers members]

/-- Widening integers does not matter to reading. -/
theorem ofItems_widenedItems : (items : List Json) →
    ofItems (Json.widenedItems items) = ofItems items
  | [] => rfl
  | item :: rest => by
    rw [Json.widenedItems, ofItems, ofItems, ofJson_widened item, ofItems_widenedItems rest]

theorem ofMembers_widenedMembers : (members : List (String × Json)) →
    ofMembers (Json.widenedMembers members) = ofMembers members
  | [] => rfl
  | (key, value) :: rest => by
    rw [Json.widenedMembers, ofMembers, ofMembers, ofJson_widened value,
      ofMembers_widenedMembers rest]

end

/-- Two trees give one value exactly if they are the same with doubles in place of integers that
are no words. -/
theorem ofJson_eq_iff (j j' : Json) : ofJson j = ofJson j' ↔ j.widened = j'.widened := by
  constructor
  · intro h
    rw [← encode_ofJson, h, encode_ofJson]
  · intro h
    rw [← ofJson_widened, h, ofJson_widened]

end Value

end DataGrid
