/-!
# Splitting a text at a character

* `splitFirst? c` divides a text at the first `c`.
* `splitAll c` divides it at every `c`; it always gives at least one part.
-/

namespace DataGrid.Text

/-- What stands before and after the first `c`, if there is one. -/
def splitFirst? (c : Char) : List Char → Option (List Char × List Char)
  | [] => none
  | x :: rest =>
    if x = c then some ([], rest)
    else (splitFirst? c rest).map fun (before, after) => (x :: before, after)

/-- The parts between the occurrences of `c`. -/
def splitAll (c : Char) : List Char → List (List Char)
  | [] => [[]]
  | x :: rest =>
    if x = c then [] :: splitAll c rest
    else match splitAll c rest with
      | part :: parts => (x :: part) :: parts
      | [] => [[x]]

/-- The parts of a string between the occurrences of `c`. -/
def parts (c : Char) (text : String) : List String := (splitAll c text.toList).map String.ofList

/-- There is always a part, though it may be empty. -/
theorem splitAll_ne_nil (c : Char) (text : List Char) : splitAll c text ≠ [] := by
  cases text with
  | nil => simp [splitAll]
  | cons x rest =>
    unfold splitAll
    split
    · simp
    · split <;> simp

/-- What stands before the first `c` is without a `c`. -/
theorem splitFirst?_eq_some_iff {c : Char} {text before after : List Char} :
    splitFirst? c text = some (before, after) ↔ text = before ++ c :: after ∧ c ∉ before := by
  induction text generalizing before with
  | nil => simp [splitFirst?]
  | cons x rest ih =>
    rw [splitFirst?]
    split
    next h =>
      subst h
      cases before <;> simp +contextual [eq_comm]
    next h =>
      cases before with
      | nil => simp [h]
      | cons y before =>
        rw [List.cons_append, List.cons.injEq, List.mem_cons, not_or, Option.map_eq_some_iff]
        constructor
        · rintro ⟨⟨before', after'⟩, first, joined⟩
          cases joined
          obtain ⟨rest_eq, none⟩ := ih.1 first
          exact ⟨⟨rfl, rest_eq⟩, Ne.symm h, none⟩
        · rintro ⟨⟨rfl, rest_eq⟩, -, none⟩
          exact ⟨_, ih.2 ⟨rest_eq, none⟩, rfl⟩

theorem splitFirst?_eq_none_iff {c : Char} {text : List Char} :
    splitFirst? c text = none ↔ c ∉ text := by
  induction text with
  | nil => simp [splitFirst?]
  | cons x rest ih =>
    rw [splitFirst?]
    split
    next h => simp [h]
    next h => simp [ih, Ne.symm h]

/-- A text is divided at the first `c`, and what stands after it at every other. -/
theorem splitAll_eq (c : Char) (text : List Char) :
    splitAll c text = match splitFirst? c text with
      | some (before, after) => before :: splitAll c after
      | none => [text] := by
  induction text with
  | nil => rfl
  | cons x rest ih =>
    rw [splitAll, splitFirst?]
    split
    · rfl
    · rw [ih]
      cases splitFirst? c rest <;> rfl

/-- The first part is what stands before the first `c`, or the whole text. -/
theorem splitAll_eq_cons_iff {c : Char} {text part : List Char} {parts : List (List Char)} :
    splitAll c text = part :: parts
      ↔ c ∉ part ∧ (text = part ∧ parts = []
        ∨ ∃ rest, text = part ++ c :: rest ∧ parts = splitAll c rest) := by
  rw [splitAll_eq]
  cases h : splitFirst? c text with
  | none =>
    have none := splitFirst?_eq_none_iff.1 h
    rw [List.cons.injEq]
    constructor
    · rintro ⟨rfl, rfl⟩
      exact ⟨none, .inl ⟨rfl, rfl⟩⟩
    · rintro ⟨-, ⟨rfl, rfl⟩ | ⟨rest, rfl, -⟩⟩
      · exact ⟨rfl, rfl⟩
      · simp at none
  | some halves =>
    obtain ⟨before, after⟩ := halves
    obtain ⟨joined, first⟩ := splitFirst?_eq_some_iff.1 h
    rw [List.cons.injEq]
    constructor
    · rintro ⟨rfl, rfl⟩
      exact ⟨first, .inr ⟨after, joined, rfl⟩⟩
    · rintro ⟨none, ⟨rfl, rfl⟩ | ⟨rest, same, rfl⟩⟩
      · simp [joined] at none
      · rw [splitFirst?_eq_some_iff.2 ⟨same, none⟩] at h
        cases h
        exact ⟨rfl, rfl⟩

end DataGrid.Text
