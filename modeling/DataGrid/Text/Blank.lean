/-!
# Blanks around a text

A blank is a character with the Unicode property White_Space, which has 25 members. `trim` drops
the blanks at both ends of a text, and `trimStart` those at its start.
-/

namespace DataGrid.Text

/-- Whether a character has the Unicode property White_Space. -/
def isBlank (c : Char) : Bool :=
  let n := c.toNat
  (9 ≤ n && n ≤ 13) || n == 32 || n == 0x85 || n == 0xA0 || n == 0x1680
    || (0x2000 ≤ n && n ≤ 0x200A) || n == 0x2028 || n == 0x2029 || n == 0x202F || n == 0x205F
    || n == 0x3000

/-- Drops the blanks at the start of a text. -/
def trimStart (text : List Char) : List Char := text.dropWhile isBlank

/-- Drops the blanks at both ends of a text. -/
def trim (text : List Char) : List Char := (trimStart (trimStart text).reverse).reverse

/-! ## Small facts -/

theorem trimStart_eq_self {c : Char} {rest : List Char} (h : isBlank c = false) :
    trimStart (c :: rest) = c :: rest := by
  simp [trimStart, h]

/-- A text that neither starts nor ends with a blank stays as it is. -/
theorem trim_eq_self {text : List Char} (start : ∀ c ∈ text.head?, isBlank c = false)
    (stop : ∀ c ∈ text.getLast?, isBlank c = false) : trim text = text := by
  cases text with
  | nil => rfl
  | cons c rest =>
    have first : trimStart (c :: rest) = c :: rest := trimStart_eq_self (start c (by simp))
    rw [trim, first]
    obtain ⟨init, last, h⟩ : ∃ init last, c :: rest = init ++ [last] :=
      ⟨_, _, (List.dropLast_concat_getLast (List.cons_ne_nil c rest)).symm⟩
    rw [h, List.reverse_append, List.reverse_singleton, List.singleton_append,
      trimStart_eq_self (stop last (by simp [h]))]
    simp

/-- A text without blanks stays as it is. -/
theorem trim_eq_self_of_forall {text : List Char} (h : ∀ c ∈ text, isBlank c = false) :
    trim text = text :=
  trim_eq_self (fun c hc => h c (List.mem_of_head? hc)) fun c hc => h c (List.mem_of_getLast? hc)

end DataGrid.Text
