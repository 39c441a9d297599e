/-!
# Integers of 64 bits

* `Integer.narrow?` takes an integer that fits into a signed 64-bit word, and `Integer.saturate`
  takes the nearest that does.
* `Integer.ofText?` reads decimal text with an optional sign.
-/

namespace DataGrid.Integer

/-- The least integer of a signed word. -/
def least : Int := -9223372036854775808

/-- The greatest integer of a signed word. -/
def greatest : Int := 9223372036854775807

/-- Whether an integer fits into a signed word. -/
def Fits (n : Int) : Prop := least ≤ n ∧ n ≤ greatest

instance (n : Int) : Decidable (Fits n) := inferInstanceAs (Decidable (_ ∧ _))

/-- The word with the value of `n`, if one has it. -/
def narrow? (n : Int) : Option Int64 := if Fits n then some (Int64.ofInt n) else none

/-- The word whose value is nearest to `n`. -/
def saturate (n : Int) : Int64 := Int64.ofInt (max least (min n greatest))

/-- A power of ten. -/
def powerOfTen (n : Nat) : Nat := Nat.pow 10 n

/-- Reads a text of one or more decimal digits. -/
def naturalOfText? (text : List Char) : Option Nat :=
  if !text.isEmpty && text.all Char.isDigit then some (Nat.ofDigitChars 10 text 0) else none

/-- Reads an optional sign and one or more decimal digits. -/
def unboundedOfText? : List Char → Option Int
  | '-' :: rest => (naturalOfText? rest).map fun n => -(n : Int)
  | '+' :: rest => (naturalOfText? rest).map fun n => (n : Int)
  | text => (naturalOfText? text).map fun n => (n : Int)

/-- Reads an optional sign and decimal digits whose value fits into a signed word. -/
def ofText? (text : List Char) : Option Int64 := (unboundedOfText? text).bind narrow?

/-- The digits of an integer after a minus sign if it is negative. -/
def text (n : Int) : List Char :=
  if n < 0 then '-' :: Nat.toDigits 10 n.natAbs else Nat.toDigits 10 n.natAbs

/-- The digits of a natural after as many zeros as fill a width. -/
def padded (width n : Nat) : List Char :=
  let digits := Nat.toDigits 10 n
  List.replicate (width - digits.length) '0' ++ digits

/-! ## Words and their values -/

theorem fits_toInt (i : Int64) : Fits i.toInt := by
  have low := i.le_toInt
  have high := i.toInt_lt
  constructor <;> simp only [least, greatest] <;> omega

theorem toInt_ofInt_of_fits {n : Int} (h : Fits n) : (Int64.ofInt n).toInt = n := by
  obtain ⟨low, high⟩ := h
  simp only [least, greatest] at low high
  rw [Int64.toInt_ofInt]
  exact Int.bmod_eq_of_le (by simp [Int64.size]; omega) (by simp [Int64.size]; omega)

theorem narrow?_toInt (i : Int64) : narrow? i.toInt = some i := by
  simp [narrow?, fits_toInt]

theorem narrow?_eq_some_iff {n : Int} {i : Int64} : narrow? n = some i ↔ i.toInt = n := by
  constructor
  · intro h
    unfold narrow? at h
    split at h
    next fits => cases h; exact toInt_ofInt_of_fits fits
    next => cases h
  · rintro rfl
    exact narrow?_toInt i

/-! ## Reading back what is written -/

theorem isDigit_of_mem_toDigits {n : Nat} {c : Char} (h : c ∈ Nat.toDigits 10 n) :
    c.isDigit = true :=
  Nat.isDigit_of_mem_toDigits (by decide) (by decide) h

theorem naturalOfText?_toDigits (n : Nat) : naturalOfText? (Nat.toDigits 10 n) = some n := by
  have digits : (Nat.toDigits 10 n).all Char.isDigit = true :=
    List.all_eq_true.2 fun _ h => isDigit_of_mem_toDigits h
  rw [naturalOfText?, digits]
  simp [Nat.ofDigitChars_ten_toDigits]

theorem naturalOfText?_padded (width n : Nat) : naturalOfText? (padded width n) = some n := by
  have digits : (padded width n).all Char.isDigit = true := by
    rw [List.all_eq_true]
    intro c h
    rcases List.mem_append.1 h with h | h
    · rw [List.eq_of_mem_replicate h]; decide
    · exact isDigit_of_mem_toDigits h
  have nonempty : (padded width n).isEmpty = false := by
    cases h : padded width n with
    | nil => exact absurd (List.append_eq_nil_iff.1 h).2 Nat.toDigits_ne_nil
    | cons => rfl
  rw [naturalOfText?, digits, nonempty]
  simp [padded, Nat.ofDigitChars_append, Nat.ofDigitChars_ten_toDigits]

end DataGrid.Integer
