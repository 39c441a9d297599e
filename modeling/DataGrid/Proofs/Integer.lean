import DataGrid.Integer
import DataGrid.Text.Blank
import Mathlib.Algebra.Order.Ring.Nat

/-!
# Integers are read back

A text of decimal digits is read as the number that it writes: a natural behind zeros
(`Integer.ofText?_padded`) and an integer behind its sign (`Integer.ofText?_text`), if they fit into
a word. What is read of a text is less than the power of ten with as many zeros as the text has
characters (`Integer.natAbs_lt_of_ofText?`).
-/

namespace DataGrid

/-- A text of digits. -/
def AllDigits (text : List Char) : Prop := ∀ c ∈ text, c.isDigit = true

/-- The codes of the ten digits. -/
theorem toNat_of_isDigit {c : Char} (h : c.isDigit = true) : 48 ≤ c.toNat ∧ c.toNat ≤ 57 := by
  simpa [Char.isDigit, UInt32.le_iff_toNat_le] using h

theorem isBlank_of_isDigit {c : Char} (h : c.isDigit = true) : Text.isBlank c = false := by
  have code := toNat_of_isDigit h
  simp only [Text.isBlank]
  simp
  omega

/-- What is no digit does not stand in a text of digits. -/
theorem AllDigits.not_mem {ds : List Char} (hds : AllDigits ds) {c : Char}
    (hc : c.isDigit = false) : c ∉ ds := by
  intro h
  rw [hds c h] at hc
  cases hc

namespace Integer

/-! ### Digits -/

theorem allDigits_padded (width n : Nat) : AllDigits (padded width n) := by
  intro c hc
  rcases List.mem_append.1 hc with hc | hc
  · rw [List.eq_of_mem_replicate hc]
    rfl
  · exact isDigit_of_mem_toDigits hc

theorem length_padded {width n : Nat} (hwidth : 0 < width) (hn : n < 10 ^ width) :
    (padded width n).length = width := by
  have short := (Nat.length_toDigits_le_iff (b := 10) (by decide) hwidth).2 hn
  rw [padded, List.length_append, List.length_replicate]
  omega

theorem padded_ne_nil (width n : Nat) : padded width n ≠ [] :=
  fun h => Nat.toDigits_ne_nil (List.append_eq_nil_iff.1 h).2

theorem ofDigitChars_padded (width n : Nat) : Nat.ofDigitChars 10 (padded width n) 0 = n := by
  rw [padded, Nat.ofDigitChars_append, Nat.ofDigitChars_replicate_zero, Nat.mul_zero,
    Nat.ofDigitChars_ten_toDigits]

/-- Digits write less than the power of ten with as many zeros. -/
theorem ofDigitChars_lt {ds : List Char} (hds : AllDigits ds) (init : Nat) :
    Nat.ofDigitChars 10 ds init < (init + 1) * 10 ^ ds.length := by
  induction ds generalizing init with
  | nil => simp
  | cons c ds ih =>
    obtain ⟨hc, hds⟩ := List.forall_mem_cons.1 hds
    have code := toNat_of_isDigit hc
    have digit : c.toNat - '0'.toNat < 10 := by
      have zero : '0'.toNat = 48 := rfl
      omega
    calc Nat.ofDigitChars 10 (c :: ds) init
        = Nat.ofDigitChars 10 ds (10 * init + (c.toNat - '0'.toNat)) := Nat.ofDigitChars_cons
      _ < (10 * init + (c.toNat - '0'.toNat) + 1) * 10 ^ ds.length := ih hds _
      _ ≤ ((init + 1) * 10) * 10 ^ ds.length := Nat.mul_le_mul_right _ (by omega)
      _ = (init + 1) * 10 ^ (c :: ds).length := by
        rw [List.length_cons, Nat.pow_succ, Nat.mul_assoc, Nat.mul_comm 10]

/-! ### Reading -/

theorem allDigits_of_naturalOfText? {ds : List Char} {n : Nat} (h : naturalOfText? ds = some n) :
    AllDigits ds ∧ Nat.ofDigitChars 10 ds 0 = n := by
  rw [naturalOfText?] at h
  split at h
  next digits =>
    rw [Bool.and_eq_true, List.all_eq_true] at digits
    exact ⟨digits.2, Option.some.inj h⟩
  next => cases h

/-- A text of digits has no sign. -/
theorem unboundedOfText?_of_allDigits {ds : List Char} (hds : AllDigits ds) {n : Nat}
    (h : naturalOfText? ds = some n) : unboundedOfText? ds = some (n : Int) := by
  have minus := hds.not_mem (c := '-') rfl
  have plus := hds.not_mem (c := '+') rfl
  unfold unboundedOfText?
  split
  · exact absurd List.mem_cons_self minus
  · exact absurd List.mem_cons_self plus
  · rw [h]
    rfl

/-- A natural that fits is read behind any number of zeros. -/
theorem ofText?_padded {width n : Nat} (fits : Fits n) :
    ofText? (padded width n) = some (Int64.ofInt n) := by
  rw [ofText?, unboundedOfText?_of_allDigits (allDigits_padded width n)
    (naturalOfText?_padded width n)]
  exact if_pos fits

theorem unboundedOfText?_text (n : Int) : unboundedOfText? (text n) = some n := by
  rw [text]
  split
  next negative =>
    rw [unboundedOfText?, naturalOfText?_toDigits]
    exact congrArg some (show -(n.natAbs : Int) = n by omega)
  next =>
    rw [unboundedOfText?_of_allDigits (fun c hc => isDigit_of_mem_toDigits hc)
      (naturalOfText?_toDigits _)]
    exact congrArg some (by omega)

/-- What is written of a word is read as the word. -/
theorem ofText?_text (i : Int64) : ofText? (text i.toInt) = some i := by
  rw [ofText?, unboundedOfText?_text, Option.bind_some, narrow?_toInt]

/-- The digits and the sign are no blanks. -/
theorem trim_text (n : Int) : Text.trim (text n) = text n := by
  have digits : AllDigits (Nat.toDigits 10 n.natAbs) := fun c hc => isDigit_of_mem_toDigits hc
  refine Text.trim_eq_self_of_forall fun c hc => ?_
  rw [text] at hc
  split at hc
  · rcases List.mem_cons.1 hc with rfl | hc
    · rfl
    · exact isBlank_of_isDigit (digits c hc)
  · exact isBlank_of_isDigit (digits c hc)

/-- The digits of a text that is read may stand behind a sign. -/
theorem exists_natural_of_unboundedOfText? {t : List Char} {n : Int}
    (h : unboundedOfText? t = some n) :
    ∃ sign ds m, t = sign ++ ds ∧ (sign = [] ∨ sign = ['-'] ∨ sign = ['+'])
      ∧ naturalOfText? ds = some m ∧ n.natAbs = m := by
  have natural {ds : List Char} {f : Int → Int} (size : ∀ m : Nat, (f m).natAbs = m)
      (h : (naturalOfText? ds >>= fun m => some (m : Int)).map f = some n) :
      ∃ m, naturalOfText? ds = some m ∧ n.natAbs = m := by
    cases hm : naturalOfText? ds with
    | none =>
      rw [hm] at h
      cases h
    | some m =>
      rw [hm] at h
      cases h
      exact ⟨m, rfl, size m⟩
  unfold unboundedOfText? at h
  split at h
  · obtain ⟨m, hm, size⟩ := natural (fun m => by simp) h
    exact ⟨['-'], _, m, rfl, .inr (.inl rfl), hm, size⟩
  · obtain ⟨m, hm, size⟩ := natural (fun m => by simp) h
    exact ⟨['+'], _, m, rfl, .inr (.inr rfl), hm, size⟩
  · obtain ⟨m, hm, size⟩ := natural (fun m => by simp) h
    exact ⟨[], _, m, rfl, .inl rfl, hm, size⟩

/-- What is read of a text has no more digits than the text has characters. -/
theorem natAbs_lt_of_ofText? {t : List Char} {i : Int64} (h : ofText? t = some i) :
    i.toInt.natAbs < 10 ^ t.length := by
  obtain ⟨n, hn, narrow⟩ := Option.bind_eq_some_iff.1 h
  obtain ⟨sign, ds, m, rfl, -, hm, size⟩ := exists_natural_of_unboundedOfText? hn
  obtain ⟨hds, rfl⟩ := allDigits_of_naturalOfText? hm
  rw [narrow?_eq_some_iff.1 narrow, size, List.length_append]
  have bound := ofDigitChars_lt hds 0
  rw [Nat.zero_add, Nat.one_mul] at bound
  exact Nat.lt_of_lt_of_le bound (Nat.pow_le_pow_right (by decide) (Nat.le_add_left _ _))

/-- Only digits and signs are read. -/
theorem not_mem_of_ofText? {t : List Char} {i : Int64} (h : ofText? t = some i) {c : Char}
    (hc : c.isDigit = false) (minus : c ≠ '-') (plus : c ≠ '+') : c ∉ t := by
  obtain ⟨n, hn, -⟩ := Option.bind_eq_some_iff.1 h
  obtain ⟨sign, ds, m, rfl, hsign, hm, -⟩ := exists_natural_of_unboundedOfText? hn
  obtain ⟨hds, -⟩ := allDigits_of_naturalOfText? hm
  rw [List.mem_append, not_or]
  refine ⟨?_, hds.not_mem hc⟩
  rcases hsign with rfl | rfl | rfl <;> simp [minus, plus]

end Integer

end DataGrid
