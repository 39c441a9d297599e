import DataGrid.Proofs.Criteria
import DataGrid.Proofs.Outcome
import DataGrid.Proofs.Value.Encoding

/-!
# The grammar of criteria

`Criteria.Documented` is the grammar of filters in JSON: a comparison has two or three elements, a
negation two, and a group starts with a clause, at every depth.

* `Criteria.pruned` leaves out what reading passes over: what stands between the operator and the
  last element of a comparison, and what follows the operand of a negation. JSON is read as it is
  without these (`ofJson_pruned`), and is accepted exactly if it is in the grammar without them.
* `Criteria.Respelled` says of two filters in the grammar that they differ at most in names and
  operators, which stand for the same word, and in literals, which stand for the same value.
* `Criteria.Denotes` relates JSON in the grammar to the filter that is written there. What is read
  is denoted by what is left of the JSON (`denotes_pruned_iff`), and two trees that denote one
  filter are spellings of each other (`respelled_iff`).
* `reads_pruned` puts it together: what is accepted, what is passed over, and what is read as one
  filter. So more than the grammar is accepted (`reads_undocumented`).
-/

namespace DataGrid.Criteria

/-- Whether an array that starts with an element is a comparison. -/
def opensComparison : Json → Bool
  | .array _ => false
  | .string s => decide (s ≠ negationMark)
  | _ => true

mutual

/-- JSON in the grammar of filters. -/
inductive Documented : Json → Prop where
  /-- a comparison without an operator -/
  | pair {accessor : Json} (h : opensComparison accessor = true) (value : Json) :
    Documented (.array [accessor, value])
  /-- a comparison with an operator -/
  | triple {accessor : Json} (h : opensComparison accessor = true) (operation value : Json) :
    Documented (.array [accessor, operation, value])
  /-- a negation -/
  | negation {operand : Json} (h : Documented operand) :
    Documented (.array [.string negationMark, operand])
  /-- a group, which starts with a clause -/
  | group {first : Json} {rest : List Json} (h : Documented first)
    (hrest : DocumentedItems rest) : Documented (.array (first :: rest))

/-- What follows the first clause of a group. -/
inductive DocumentedItems : List Json → Prop where
  /-- the end of the group -/
  | nil : DocumentedItems []
  /-- a connector -/
  | connector (token : String) {rest : List Json} (hrest : DocumentedItems rest) :
    DocumentedItems (.string token :: rest)
  /-- a clause -/
  | clause {first : Json} {rest : List Json} (h : Documented first)
    (hrest : DocumentedItems rest) : DocumentedItems (first :: rest)

end

/-- A comparison without what stands between the operator and the last element. -/
def prunedComparison : List Json → List Json
  | accessor :: operation :: value :: rest =>
    [accessor, operation, (value :: rest).getLast (List.cons_ne_nil _ _)]
  | items => items

mutual

/-- A filter without the elements that reading passes over. -/
def pruned : Json → Json
  | .array items =>
    match items with
    | .array _ :: _ => .array (prunedItems items)
    | .string s :: _ =>
      if s = negationMark then .array (prunedOperand items) else .array (prunedComparison items)
    | _ => .array (prunedComparison items)
  | other => other

/-- The items of a group without the elements that reading passes over. -/
def prunedItems : List Json → List Json
  | [] => []
  | item :: rest => pruned item :: prunedItems rest

/-- A negation without what follows its operand. -/
def prunedOperand : List Json → List Json
  | mark :: operand :: _ => [mark, pruned operand]
  | items => items

end

mutual

/-- Two filters in the grammar differ at most in how names, operators and literals are written. -/
inductive Respelled : Json → Json → Prop where
  /-- comparisons without an operator -/
  | pair {accessor accessor' value value' : Json} (h : opensComparison accessor = true)
    (h' : opensComparison accessor' = true) (names : wordOf accessor = wordOf accessor')
    (values : value.widened = value'.widened) :
    Respelled (.array [accessor, value]) (.array [accessor', value'])
  /-- comparisons with an operator -/
  | triple {accessor accessor' operation operation' value value' : Json}
    (h : opensComparison accessor = true) (h' : opensComparison accessor' = true)
    (names : wordOf accessor = wordOf accessor')
    (operations : wordOf operation = wordOf operation')
    (values : value.widened = value'.widened) :
    Respelled (.array [accessor, operation, value]) (.array [accessor', operation', value'])
  /-- negations -/
  | negation {operand operand' : Json} (h : Respelled operand operand') :
    Respelled (.array [.string negationMark, operand]) (.array [.string negationMark, operand'])
  /-- groups -/
  | group {first first' : Json} {rest rest' : List Json} (h : Respelled first first')
    (hrest : RespelledItems rest rest') :
    Respelled (.array (first :: rest)) (.array (first' :: rest'))

/-- The items of two groups are the same connectors, and clauses that differ so. -/
inductive RespelledItems : List Json → List Json → Prop where
  /-- the ends of the groups -/
  | nil : RespelledItems [] []
  /-- a connector in both -/
  | connector (token : String) {rest rest' : List Json} (hrest : RespelledItems rest rest') :
    RespelledItems (.string token :: rest) (.string token :: rest')
  /-- a clause in both -/
  | clause {first first' : Json} {rest rest' : List Json} (h : Respelled first first')
    (hrest : RespelledItems rest rest') : RespelledItems (first :: rest) (first' :: rest')

end

mutual

/-- A filter in the grammar is written as JSON. -/
inductive Denotes : Json → Criteria → Prop where
  /-- a comparison without an operator -/
  | pair {accessor value : Json} {name : String} {literal : Value}
    (h : opensComparison accessor = true) (hname : wordOf accessor = name)
    (hvalue : Value.ofJson value = literal) :
    Denotes (.array [accessor, value]) (.binary name none literal)
  /-- a comparison with an operator -/
  | triple {accessor operation value : Json} {name word : String} {literal : Value}
    (h : opensComparison accessor = true) (hname : wordOf accessor = name)
    (hword : wordOf operation = word) (hvalue : Value.ofJson value = literal) :
    Denotes (.array [accessor, operation, value]) (.binary name (some word) literal)
  /-- a negation -/
  | negation {operand : Json} {c : Criteria} (h : Denotes operand c) :
    Denotes (.array [.string negationMark, operand]) (.negation c)
  /-- a group -/
  | group {first : Json} {rest : List Json} {c : Criteria} {items : List CriteriaItem}
    (h : Denotes first c) (hrest : DenotesItems rest items) :
    Denotes (.array (first :: rest)) (.group (.clause c :: items))

/-- Items of a group are written as JSON. -/
inductive DenotesItems : List Json → List CriteriaItem → Prop where
  /-- the end of the group -/
  | nil : DenotesItems [] []
  /-- a connector -/
  | connector (token : String) {rest : List Json} {items : List CriteriaItem}
    (hrest : DenotesItems rest items) :
    DenotesItems (.string token :: rest) (.connector token :: items)
  /-- a clause -/
  | clause {first : Json} {rest : List Json} {c : Criteria} {items : List CriteriaItem}
    (h : Denotes first c) (hrest : DenotesItems rest items) :
    DenotesItems (first :: rest) (.clause c :: items)

end

/-! ### Reading without what is passed over -/

/-- An array is read as a comparison by what it starts with. -/
theorem ofJson_comparison {accessor : Json} (h : opensComparison accessor = true)
    (rest : List Json) : ofJson (.array (accessor :: rest)) = binaryOf (accessor :: rest) := by
  cases accessor with
  | array _ => cases h
  | string s => exact ofJson_word (of_decide_eq_true h) rest
  | _ => rfl

theorem pruned_comparison {accessor : Json} (h : opensComparison accessor = true)
    (rest : List Json) :
    pruned (.array (accessor :: rest)) = .array (prunedComparison (accessor :: rest)) := by
  cases accessor with
  | array _ => cases h
  | string s =>
    rw [pruned]
    exact if_neg (of_decide_eq_true h)
  | _ => rfl

theorem pruned_array (first rest : List Json) :
    pruned (.array (.array first :: rest)) = .array (prunedItems (.array first :: rest)) := rfl

theorem pruned_string (s : String) : pruned (.string s) = .string s := rfl

/-- An array that starts with the mark is read as the negation of its operand. -/
theorem ofJson_mark (rest : List Json) : ofJson (.array (.string negationMark :: rest))
    = (ofOperand (.string negationMark :: rest)).map .negation := by
  rw [ofJson]
  exact if_pos rfl

theorem pruned_mark (rest : List Json) : pruned (.array (.string negationMark :: rest))
    = .array (prunedOperand (.string negationMark :: rest)) := by
  rw [pruned]
  exact if_pos rfl

/-- An array is empty, a group, a negation or a comparison. -/
theorem array_cases (items : List Json) :
    items = [] ∨ (∃ first rest, items = .array first :: rest)
    ∨ (∃ rest, items = .string negationMark :: rest)
    ∨ ∃ accessor rest, items = accessor :: rest ∧ opensComparison accessor = true := by
  rcases items with _ | ⟨accessor, rest⟩
  · exact .inl rfl
  cases accessor with
  | array first => exact .inr (.inl ⟨first, rest, rfl⟩)
  | string s =>
    by_cases hs : s = negationMark
    · exact .inr (.inr (.inl ⟨rest, by rw [hs]⟩))
    · exact .inr (.inr (.inr ⟨_, rest, rfl, decide_eq_true hs⟩))
  | _ => exact .inr (.inr (.inr ⟨_, rest, rfl, rfl⟩))

/-- What stands between the operator and the last element does not matter to reading. -/
theorem binaryOf_prunedComparison (items : List Json) :
    binaryOf (prunedComparison items) = binaryOf items := by
  match items with
  | [] | [_] | [_, _] => rfl
  | accessor :: operation :: value :: rest => rfl

/-- A comparison keeps its first element. -/
theorem exists_prunedComparison (accessor : Json) (rest : List Json) :
    ∃ kept, prunedComparison (accessor :: rest) = accessor :: kept := by
  match rest with
  | [] | [_] | _ :: _ :: _ => exact ⟨_, rfl⟩

/-- A negation keeps its mark. -/
theorem exists_prunedOperand (mark : Json) (rest : List Json) :
    ∃ kept, prunedOperand (mark :: rest) = mark :: kept := by
  cases rest <;> exact ⟨_, rfl⟩

/-- Pruning leaves an array an array. -/
theorem exists_pruned_array (items : List Json) : ∃ kept, pruned (.array items) = .array kept := by
  rcases array_cases items with rfl | ⟨first, rest, rfl⟩ | ⟨rest, rfl⟩ | ⟨accessor, rest, rfl, h⟩
  · exact ⟨_, rfl⟩
  · exact ⟨_, pruned_array first rest⟩
  · exact ⟨_, pruned_mark rest⟩
  · exact ⟨_, pruned_comparison h rest⟩

mutual

/-- JSON is read as it is without the elements that are passed over. -/
theorem ofJson_pruned : (j : Json) → ofJson (pruned j) = ofJson j
  | .null | .bool _ | .int _ | .float _ | .string _ | .object _ => rfl
  | .array items => by
    have clauses := ofItems_prunedItems items
    have operand := ofOperand_prunedOperand items
    rcases array_cases items with rfl | ⟨first, rest, rfl⟩ | ⟨rest, rfl⟩ | ⟨accessor, rest, rfl, h⟩
    · rfl
    -- what is left starts as before, and so is read as the same kind of filter
    · obtain ⟨kept, hkept⟩ := exists_pruned_array first
      rw [pruned_array, ofJson_array, ← clauses, prunedItems, hkept, ofJson_array]
    · obtain ⟨kept, hkept⟩ := exists_prunedOperand (.string negationMark) rest
      rw [pruned_mark, ofJson_mark, ← operand, hkept, ofJson_mark]
    · obtain ⟨kept, hkept⟩ := exists_prunedComparison accessor rest
      rw [pruned_comparison h, hkept, ofJson_comparison h, ← hkept, binaryOf_prunedComparison,
        ofJson_comparison h]

/-- The items of a group are read as they are without what is passed over in them. -/
theorem ofItems_prunedItems : (items : List Json) → ofItems (prunedItems items) = ofItems items
  | [] => rfl
  | item :: rest => by
    have others := ofItems_prunedItems rest
    have clause := ofJson_pruned item
    cases item with
    | array elements =>
      obtain ⟨kept, hkept⟩ := exists_pruned_array elements
      rw [hkept] at clause
      rw [prunedItems, hkept, ofItems, ofItems, clause, others]
    | string token => rw [prunedItems, pruned_string, ofItems, ofItems, others]
    | _ => rfl

/-- Nor does what follows the operand of a negation. -/
theorem ofOperand_prunedOperand : (items : List Json) →
    ofOperand (prunedOperand items) = ofOperand items
  | [] | [_] => rfl
  | _ :: operand :: _ => ofJson_pruned operand

end

/-! ### The grammar and what it denotes -/

/-- A filter in the grammar is an array. -/
theorem Documented.exists_array {j : Json} (h : Documented j) : ∃ items, j = .array items := by
  cases h <;> exact ⟨_, rfl⟩

theorem Denotes.exists_array {j : Json} {c : Criteria} (h : Denotes j c) :
    ∃ items, j = .array items := by
  cases h <;> exact ⟨_, rfl⟩

mutual

/-- JSON in the grammar is a filter. -/
theorem Documented.exists_denotes : {j : Json} → Documented j → ∃ c, Denotes j c
  | _, .pair h _ => ⟨_, .pair h rfl rfl⟩
  | _, .triple h _ _ => ⟨_, .triple h rfl rfl rfl⟩
  | _, .negation h =>
    have ⟨_, hc⟩ := h.exists_denotes
    ⟨_, .negation hc⟩
  | _, .group h hrest =>
    have ⟨_, hc⟩ := h.exists_denotes
    have ⟨_, hitems⟩ := hrest.exists_denotes
    ⟨_, .group hc hitems⟩

/-- What follows the first clause in the grammar stands for some items. -/
theorem DocumentedItems.exists_denotes : {rest : List Json} → DocumentedItems rest →
    ∃ items, DenotesItems rest items
  | _, .nil => ⟨_, .nil⟩
  | _, .connector token hrest =>
    have ⟨_, hitems⟩ := hrest.exists_denotes
    ⟨_, .connector token hitems⟩
  | _, .clause h hrest =>
    have ⟨_, hc⟩ := h.exists_denotes
    have ⟨_, hitems⟩ := hrest.exists_denotes
    ⟨_, .clause hc hitems⟩

end

mutual

/-- JSON that denotes a filter is in the grammar. -/
theorem Denotes.documented : {j : Json} → {c : Criteria} → Denotes j c → Documented j
  | _, _, .pair h _ _ => .pair h _
  | _, _, .triple h _ _ _ => .triple h _ _
  | _, _, .negation h => .negation h.documented
  | _, _, .group h hrest => .group h.documented hrest.documented

theorem DenotesItems.documented : {rest : List Json} → {items : List CriteriaItem} →
    DenotesItems rest items → DocumentedItems rest
  | _, _, .nil => .nil
  | _, _, .connector token hrest => .connector token hrest.documented
  | _, _, .clause h hrest => .clause h.documented hrest.documented

end

mutual

/-- What JSON in the grammar denotes is read from it. -/
theorem Denotes.ofJson_eq : {j : Json} → {c : Criteria} → Denotes j c → ofJson j = .ok c
  | _, _, .pair h rfl rfl => ofJson_comparison h _
  | _, _, .triple h rfl rfl rfl => ofJson_comparison h _
  | _, _, .negation h => by
    rw [ofJson_mark, ofOperand, h.ofJson_eq]
    rfl
  | _, _, .group h hrest => by
    have read := h.ofJson_eq
    have others := hrest.ofItems_eq
    obtain ⟨elements, rfl⟩ := h.exists_array
    rw [ofJson_array, ofItems_array read, others]
    rfl

/-- Items are read as those that they denote. -/
theorem DenotesItems.ofItems_eq : {rest : List Json} → {items : List CriteriaItem} →
    DenotesItems rest items → ofItems rest = .ok items
  | _, _, .nil => by rw [ofItems]
  | _, _, .connector token hrest => by
    rw [ofItems, hrest.ofItems_eq]
    rfl
  | _, _, .clause h hrest => by
    have read := h.ofJson_eq
    have others := hrest.ofItems_eq
    obtain ⟨elements, rfl⟩ := h.exists_array
    rw [ofItems_array read, others]
    rfl

end

/-- A comparison that is read has two elements, or an operator and a last element. -/
theorem denotes_prunedComparison {accessor : Json} (h : opensComparison accessor = true)
    {rest : List Json} {c : Criteria} (read : binaryOf (accessor :: rest) = .ok c) :
    Denotes (.array (prunedComparison (accessor :: rest))) c := by
  match rest, read with
  | [_], rfl => exact .pair h rfl rfl
  | _ :: _ :: _, rfl => exact .triple h rfl rfl rfl

mutual

/-- What is read from JSON is denoted by it without the elements that are passed over. -/
theorem denotes_pruned : (j : Json) → {c : Criteria} → ofJson j = .ok c → Denotes (pruned j) c
  | .null, _, h | .bool _, _, h | .int _, _, h | .float _, _, h | .string _, _, h
  | .object _, _, h => by cases h
  | .array items, c, read => by
    have clauses := @denotesItems_pruned items
    have operand := @denotes_prunedOperand items
    rcases array_cases items with rfl | ⟨first, rest, rfl⟩ | ⟨rest, rfl⟩ | ⟨accessor, rest, rfl, h⟩
    · cases read
    -- the first clause of a group stays an array, so it is no connector
    · rw [ofJson_array] at read
      obtain ⟨parsed, hparsed, rfl⟩ := Outcome.map_eq_ok.1 read
      obtain ⟨kept, hkept⟩ := exists_pruned_array first
      have denoted := clauses hparsed
      rw [prunedItems, hkept] at denoted
      rw [pruned_array, prunedItems, hkept]
      cases denoted with
      | clause h hrest => exact .group h hrest
    · rw [ofJson_mark] at read
      obtain ⟨inner, hinner, rfl⟩ := Outcome.map_eq_ok.1 read
      obtain ⟨operand, _, rfl, denoted⟩ := operand hinner
      rw [pruned_mark]
      exact .negation denoted
    · rw [ofJson_comparison h] at read
      rw [pruned_comparison h]
      exact denotes_prunedComparison h read

/-- What is read as items denotes them, without what is passed over. -/
theorem denotesItems_pruned : (rest : List Json) → {items : List CriteriaItem} →
    ofItems rest = .ok items → DenotesItems (prunedItems rest) items
  | [], _, read => by
    rw [ofItems] at read
    cases read
    exact .nil
  | item :: rest, _, read => by
    have others := @denotesItems_pruned rest
    have clause := @denotes_pruned item
    cases item with
    | array elements =>
      rw [ofItems] at read
      cases hc : ofJson (.array elements) with
      | error e =>
        rw [hc] at read
        cases read
      | ok c =>
        rw [hc] at read
        obtain ⟨parsed, hparsed, rfl⟩ := Outcome.map_eq_ok.1 read
        exact .clause (clause hc) (others hparsed)
    | string token =>
      rw [ofItems] at read
      obtain ⟨parsed, hparsed, rfl⟩ := Outcome.map_eq_ok.1 read
      exact .connector token (others hparsed)
    | _ => cases read

/-- What is read as a filter behind the mark denotes it, and there is such an operand. -/
theorem denotes_prunedOperand : (items : List Json) → {c : Criteria} → ofOperand items = .ok c →
    ∃ operand rest, items.tail = operand :: rest ∧ Denotes (pruned operand) c
  | [], _, read | [_], _, read => by cases read
  | _ :: operand :: rest, _, read => ⟨operand, rest, rfl, denotes_pruned operand read⟩

end

mutual

/-- In the grammar nothing is passed over. -/
theorem Documented.pruned_eq : {j : Json} → Documented j → pruned j = j
  | _, .pair h _ => pruned_comparison h _
  | _, .triple h _ _ => pruned_comparison h _
  | _, .negation h => by rw [pruned_mark, prunedOperand, h.pruned_eq]
  | _, .group h hrest => by
    have here := h.pruned_eq
    have others := hrest.prunedItems_eq
    obtain ⟨elements, rfl⟩ := h.exists_array
    rw [pruned_array, prunedItems, here, others]

/-- In the grammar there is nothing to pass over. -/
theorem DocumentedItems.prunedItems_eq : {rest : List Json} → DocumentedItems rest →
    prunedItems rest = rest
  | _, .nil => rfl
  | _, .connector token hrest => by rw [prunedItems, pruned_string, hrest.prunedItems_eq]
  | _, .clause h hrest => by rw [prunedItems, h.pruned_eq, hrest.prunedItems_eq]

end

/-! ### Spellings of one filter -/

mutual

/-- Two spellings of each other denote one filter. -/
theorem Respelled.exists_denotes : {j j' : Json} → Respelled j j' →
    ∃ c, Denotes j c ∧ Denotes j' c
  | _, _, .pair h h' names values =>
    ⟨_, .pair h rfl rfl, .pair h' names.symm ((Value.ofJson_eq_iff _ _).2 values.symm)⟩
  | _, _, .triple h h' names operations values =>
    ⟨_, .triple h rfl rfl rfl,
      .triple h' names.symm operations.symm ((Value.ofJson_eq_iff _ _).2 values.symm)⟩
  | _, _, .negation h =>
    have ⟨_, hc, hc'⟩ := h.exists_denotes
    ⟨_, .negation hc, .negation hc'⟩
  | _, _, .group h hrest =>
    have ⟨_, hc, hc'⟩ := h.exists_denotes
    have ⟨_, hitems, hitems'⟩ := hrest.exists_denotes
    ⟨_, .group hc hitems, .group hc' hitems'⟩

theorem RespelledItems.exists_denotes : {rest rest' : List Json} → RespelledItems rest rest' →
    ∃ items, DenotesItems rest items ∧ DenotesItems rest' items
  | _, _, .nil => ⟨_, .nil, .nil⟩
  | _, _, .connector token hrest =>
    have ⟨_, hitems, hitems'⟩ := hrest.exists_denotes
    ⟨_, .connector token hitems, .connector token hitems'⟩
  | _, _, .clause h hrest =>
    have ⟨_, hc, hc'⟩ := h.exists_denotes
    have ⟨_, hitems, hitems'⟩ := hrest.exists_denotes
    ⟨_, .clause hc hitems, .clause hc' hitems'⟩

end

mutual

/-- One filter is written with the same arrays. -/
theorem Denotes.respelled : {j j' : Json} → {c : Criteria} → Denotes j c → Denotes j' c →
    Respelled j j'
  | _, _, _, .pair h hname hvalue, .pair h' hname' hvalue' =>
    .pair h h' (hname.trans hname'.symm) ((Value.ofJson_eq_iff _ _).1 (hvalue.trans hvalue'.symm))
  | _, _, _, .triple h hname hword hvalue, .triple h' hname' hword' hvalue' =>
    .triple h h' (hname.trans hname'.symm) (hword.trans hword'.symm)
      ((Value.ofJson_eq_iff _ _).1 (hvalue.trans hvalue'.symm))
  | _, _, _, .negation h, .negation h' => .negation (h.respelled h')
  | _, _, _, .group h hrest, .group h' hrest' => .group (h.respelled h') (hrest.respelled hrest')

/-- What denotes the same items is spelled the same but for names, operators and literals. -/
theorem DenotesItems.respelled : {rest rest' : List Json} → {items : List CriteriaItem} →
    DenotesItems rest items → DenotesItems rest' items → RespelledItems rest rest'
  | _, _, _, .nil, .nil => .nil
  | _, _, _, .connector token hrest, .connector _ hrest' =>
    .connector token (hrest.respelled hrest')
  | _, _, _, .clause h hrest, .clause h' hrest' => .clause (h.respelled h') (hrest.respelled hrest')

end

/-- Two trees are spellings of each other exactly if they denote one filter. -/
theorem respelled_iff {j j' : Json} : Respelled j j' ↔ ∃ c, Denotes j c ∧ Denotes j' c :=
  ⟨Respelled.exists_denotes, fun ⟨_, h, h'⟩ => h.respelled h'⟩

/-- JSON is read as a filter exactly if what is left of it denotes that filter. -/
theorem denotes_pruned_iff {j : Json} {c : Criteria} : Denotes (pruned j) c ↔ ofJson j = .ok c :=
  ⟨fun h => ofJson_pruned j ▸ h.ofJson_eq, denotes_pruned j⟩

/-- JSON is read as a filter exactly if it is in the grammar without the elements that are passed
over, it is read as it is without them, and so it is in the grammar exactly if it is read and
nothing is passed over. Two trees are read as one filter exactly if without these elements they
differ at most in how names, operators and literals are written. -/
theorem reads_pruned (j j' : Json) :
    ((∃ c, ofJson j = .ok c) ↔ Documented (pruned j))
      ∧ ofJson (pruned j) = ofJson j
      ∧ (Documented j ↔ (∃ c, ofJson j = .ok c) ∧ pruned j = j)
      ∧ ((∃ c, ofJson j = .ok c ∧ ofJson j' = .ok c) ↔ Respelled (pruned j) (pruned j')) := by
  have accepted : (∃ c, ofJson j = .ok c) ↔ Documented (pruned j) := by
    constructor
    · rintro ⟨c, h⟩
      exact (denotes_pruned j h).documented
    · intro h
      obtain ⟨c, hc⟩ := h.exists_denotes
      exact ⟨c, denotes_pruned_iff.1 hc⟩
  refine ⟨accepted, ofJson_pruned j, ?_, ?_⟩
  · constructor
    · intro h
      exact ⟨accepted.2 (h.pruned_eq.symm ▸ h), h.pruned_eq⟩
    · rintro ⟨read, kept⟩
      exact kept ▸ accepted.1 read
  · simp only [respelled_iff, denotes_pruned_iff]

/-- A clause without its pair of brackets is passed over in a negation, and a value in a
comparison. -/
theorem reads_undocumented :
    let clause := Json.array [.string "a", .int 1]
    let stray := Json.array [.string "b", .int 2]
    let crowded := Json.array [.string negationMark, clause, stray]
    let long := Json.array [.string "age", .string "=", .int 1, .int 2]
    (∃ c, ofJson crowded = .ok c ∧ ofJson (.array [.string negationMark, clause]) = .ok c)
      ∧ ¬ Documented crowded
      ∧ (∃ c, ofJson long = .ok c
        ∧ ofJson (.array [.string "age", .string "=", .int 2]) = .ok c)
      ∧ ¬ Documented long := by
  refine ⟨⟨_, rfl, rfl⟩, ?_, ⟨_, rfl, rfl⟩, ?_⟩
  · intro h
    cases h.pruned_eq
  · intro h
    cases h.pruned_eq

end DataGrid.Criteria
