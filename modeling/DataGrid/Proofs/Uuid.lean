import DataGrid.Text.Blank
import DataGrid.Uuid
import Mathlib.Data.List.Basic

/-!
# Identifiers are read back

The grouped form of an identifier is read as the identifier (`Uuid.ofText?_text`).
-/

namespace DataGrid.Uuid

/-! ### Digits -/

theorem digitValue?_digitChar {d : Nat} (h : d < 16) : digitValue? d.digitChar = some d := by
  rcases d with _ | _ | _ | _ | _ | _ | _ | _ | _ | _ | _ | _ | _ | _ | _ | _ | d
  all_goals first | rfl | omega

theorem isBlank_digitChar (d : Nat) : Text.isBlank d.digitChar = false := by
  rcases d with _ | _ | _ | _ | _ | _ | _ | _ | _ | _ | _ | _ | _ | _ | _ | _ | d <;> rfl

theorem number?_concat (ds : List Char) (c : Char) :
    number? (ds ++ [c]) = (number? ds).bind fun n => (digitValue? c).map fun d => 16 * n + d := by
  rw [number?, List.foldlM_append]
  simp only [List.foldlM_cons, List.foldlM_nil, bind_pure]
  rfl

/-- Digits are read as the number that they write. -/
theorem number?_toDigits (n : Nat) : number? (Nat.toDigits 16 n) = some n := by
  induction n using Nat.strongRecOn with
  | _ n ih =>
    -- the last digit is the remainder, and those before it write the quotient
    rcases Nat.lt_or_ge n 16 with small | large
    · rw [Nat.toDigits_of_lt_base small]
      have last := number?_concat [] n.digitChar
      rw [digitValue?_digitChar small] at last
      exact last.trans (congrArg some (Nat.zero_add n))
    · rw [Nat.toDigits_of_base_le (by decide) large, number?_concat, ih _ (by omega),
        Option.bind_some, digitValue?_digitChar (Nat.mod_lt n (by decide)), Option.map_some]
      exact congrArg some (Nat.div_add_mod n 16)

/-- Zeros in front do not count. -/
theorem number?_zeros (k : Nat) (ds : List Char) :
    number? (List.replicate k '0' ++ ds) = number? ds := by
  induction k with
  | zero => rfl
  | succ k ih =>
    rw [List.replicate_succ, List.cons_append]
    exact ih

theorem exists_digitChar {n : Nat} {c : Char} (h : c ∈ Nat.toDigits 16 n) :
    ∃ d : Nat, c = d.digitChar := by
  induction n using Nat.strongRecOn with
  | _ n ih =>
    rcases Nat.lt_or_ge n 16 with small | large
    · rw [Nat.toDigits_of_lt_base small] at h
      exact ⟨n, List.mem_singleton.1 h⟩
    · rw [Nat.toDigits_of_base_le (by decide) large] at h
      rcases List.mem_append.1 h with h | h
      · exact ih _ (by omega) h
      · exact ⟨_, List.mem_singleton.1 h⟩

variable (u : Uuid)

theorem length_digits : u.digits.length = 32 := by
  have short := (Nat.length_toDigits_le_iff (b := 16) (k := 32) (by decide) (by decide)).2
    u.value.isLt
  rw [digits, List.length_append, List.length_replicate]
  omega

theorem isBlank_of_mem_digits {c : Char} (h : c ∈ u.digits) : Text.isBlank c = false := by
  rcases List.mem_append.1 h with h | h
  · rw [List.eq_of_mem_replicate h]
    rfl
  · obtain ⟨d, rfl⟩ := exists_digitChar h
    exact isBlank_digitChar d

theorem ofDigits?_digits : ofDigits? u.digits = some u := by
  have value : number? u.digits = some u.value.toNat :=
    (number?_zeros _ _).trans (number?_toDigits u.value.toNat)
  rw [ofDigits?, if_pos u.length_digits, value, Option.map_some, BitVec.ofNat_toNat,
    BitVec.setWidth_eq]

/-! ### The grouped form -/

theorem drop_group {text group rest : List Char} {before n : Nat}
    (h : text.drop before = group ++ '-' :: rest) (length : group.length = n) :
    text.drop (before + (n + 1)) = rest := by
  rw [← List.drop_drop, h, ← length, List.drop_append]
  simp

/-- The text is the digits in five groups. -/
theorem exists_groups : ∃ a b c d e : List Char, u.digits = a ++ (b ++ (c ++ (d ++ e)))
    ∧ u.text = a ++ '-' :: (b ++ '-' :: (c ++ '-' :: (d ++ '-' :: e)))
    ∧ a.length = 8 ∧ b.length = 4 ∧ c.length = 4 ∧ d.length = 4 ∧ e.length = 12 := by
  have rest (n m : Nat) : (u.digits.drop n).take m ++ u.digits.drop (n + m) = u.digits.drop n := by
    rw [← List.drop_drop, List.take_append_drop]
  refine ⟨u.digits.take 8, (u.digits.drop 8).take 4, (u.digits.drop 12).take 4,
    (u.digits.drop 16).take 4, u.digits.drop 20, ?_, ?_, ?_⟩
  · rw [rest 16 4, rest 12 4, rest 8 4, List.take_append_drop]
  · simp only [text, List.append_assoc, List.cons_append]
  · simp [u.length_digits]

theorem length_text : u.text.length = 36 := by
  simp [text, u.length_digits]

/-- The marks stand between the groups, and the groups together are the digits. -/
theorem ofGroups?_text : ofGroups? u.text = some u := by
  have length := u.length_digits
  have marks : u.text[8]? = some '-' ∧ u.text[13]? = some '-' ∧ u.text[18]? = some '-'
      ∧ u.text[23]? = some '-' := by
    simp [text, length]
  obtain ⟨a, b, c, d, e, hdigits, htext, ha, hb, hc, hd, -⟩ := u.exists_groups
  have afterA : u.text.drop 9 = _ := drop_group (show u.text.drop 0 = _ from htext) ha
  have afterB : u.text.drop 14 = _ := drop_group afterA hb
  have afterC : u.text.drop 19 = _ := drop_group afterB hc
  have afterD : u.text.drop 24 = _ := drop_group afterC hd
  rw [ofGroups?, if_pos ⟨u.length_text, marks⟩, afterA, afterB, afterC, afterD, htext,
    List.take_left' ha, List.take_left' hb, List.take_left' hc, List.take_left' hd]
  simp only [List.append_assoc]
  rw [← hdigits, ofDigits?_digits]

/-- The grouped form is read as the identifier. -/
theorem ofText?_text : ofText? u.text = some u := by
  rw [ofText?, u.length_text, if_neg (by decide), if_pos rfl, u.ofGroups?_text]

/-- The marks of the grouped form are no blanks. -/
theorem trim_text : Text.trim u.text = u.text := by
  obtain ⟨a, b, c, d, e, hdigits, htext, -⟩ := u.exists_groups
  refine Text.trim_eq_self_of_forall fun x hx => ?_
  by_cases dash : x = '-'
  · rw [dash]
    rfl
  · refine u.isBlank_of_mem_digits ?_
    rw [htext] at hx
    rw [hdigits]
    simpa [dash] using hx

end DataGrid.Uuid
