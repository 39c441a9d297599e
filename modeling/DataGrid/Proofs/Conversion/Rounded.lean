import DataGrid.Conversion
import DataGrid.Proofs.Binary64.Nearest
import DataGrid.Proofs.Conforming
import DataGrid.Proofs.Tally

/-!
# Doubles as literals for integers

A double is converted to the integer nearest to it, ties to even, and has no counterpart if that
integer is not one of the type. One double is not treated so: the one right above the greatest
integer of 64 bits (`FieldType.IsClamped`) becomes that integer (`FieldType.convert_float`).
-/

namespace DataGrid

open Integer (Fits least greatest)

namespace FieldType

/-- The integers of a type of integers. -/
def HasInteger : FieldType → ℤ → Prop
  | int32, n => -2147483648 ≤ n ∧ n ≤ 2147483647
  | int64, n => Fits n
  | _, _ => False

/-- A literal whose place the greatest integer of the type takes. -/
def IsClamped (t : FieldType) (x : Binary64) : Prop := t = int64 ∧ x.toRat = 2 ^ 63

end FieldType

namespace Value

variable {x : Binary64}

/-- A finite double counts for the integer nearest to it if a word holds that, or the one before. -/
theorem literalInteger?_float (finite : x.isFinite = true) :
    (float x).literalInteger? = if Fits x.roundToInt then some (Int64.ofInt x.roundToInt)
      else if x.roundToInt = greatest + 1 then some (Int64.ofInt greatest) else none := by
  rw [literalInteger?, finite, Bool.true_and]
  split_ifs with held fits above fits above
  · rw [Integer.saturate_of_fits fits]
  · rw [above]
    rfl
  · rw [decide_eq_true_eq] at held
    exact absurd ⟨held.1, by omega⟩ fits
  · rw [decide_eq_true_eq] at held
    exact absurd ⟨fits.1, by have := fits.2; omega⟩ held
  · rw [decide_eq_true_eq] at held
    exact absurd ⟨by rw [above]; decide, above.le⟩ held
  · rfl

end Value

/-- What rounds to the integer right above a word is that integer. -/
theorem Binary64.roundToInt_eq_above_iff (x : Binary64) :
    x.roundToInt = greatest + 1 ↔ x.toRat = 2 ^ 63 := by
  have above : ((greatest + 1 : ℤ) : ℚ) = 2 ^ 63 := by norm_num [greatest]
  constructor
  · intro h
    have nearest : IsNearest x.toRat (greatest + 1) := h ▸ x.isNearest_roundToInt
    rw [x.toRat_of_isNearest (by decide) nearest, above]
  · intro h
    have nearest : IsNearest x.toRat (greatest + 1) := by
      rw [h, ← above]
      exact .self _
    exact (x.isNearest_toRat_iff.1 nearest).symm

namespace FieldType

variable {x : Binary64} {t : FieldType}

theorem fits32_iff (i : Int64) : fits32 i = true ↔ int32.HasInteger i.toInt := decide_eq_true_iff

/-- A double that is rounded to an integer of the type is that integer. Of the others, one is the
greatest integer and the rest have no counterpart. -/
inductive Rounding (t : FieldType) (x : Binary64) : Option Value → Prop where
  /-- the nearest integer is one of the type -/
  | nearest {i : Int64} (rounds : i.toInt = x.roundToInt) (holds : t.HasInteger i.toInt) :
    Rounding t x (some (.int i))
  /-- the nearest integer is right above a word -/
  | clamped (above : t.IsClamped x) : Rounding t x (some (.int (Int64.ofInt greatest)))
  /-- the nearest integer is not one of the type -/
  | outside (missing : ¬ t.HasInteger x.roundToInt) (other : ¬ t.IsClamped x) : Rounding t x none

theorem rounding_int32 (finite : x.isFinite = true) :
    int32.Rounding x (int32.convert? (.float x)) := by
  have whole : ¬ int32.IsClamped x := fun clamped => nomatch clamped.1
  rw [convert?, Value.literalInteger?_float finite]
  split_ifs with fits above
  · have rounds := Integer.toInt_ofInt_of_fits fits
    rw [Option.filter_some]
    split_ifs with small
    · exact .nearest rounds ((fits32_iff _).1 small)
    · refine .outside (fun holds => small ((fits32_iff _).2 ?_)) whole
      rw [rounds]
      exact holds
  · refine .outside (fun holds => ?_) whole
    rw [above] at holds
    exact absurd holds.2 (by decide)
  · refine .outside (fun holds => fits ?_) whole
    exact ⟨Int.le_trans (by decide) holds.1, Int.le_trans holds.2 (by decide)⟩

theorem rounding_int64 (finite : x.isFinite = true) :
    int64.Rounding x (int64.convert? (.float x)) := by
  rw [convert?, Value.literalInteger?_float finite]
  split_ifs with fits above
  · have rounds := Integer.toInt_ofInt_of_fits fits
    refine .nearest rounds ?_
    rw [rounds]
    exact fits
  · exact .clamped ⟨rfl, x.roundToInt_eq_above_iff.1 above⟩
  · exact .outside fits fun clamped => above (x.roundToInt_eq_above_iff.2 clamped.2)

/-- Both integer types round a finite double to its nearest integer, or refuse it. -/
theorem rounding_convert? (finite : x.isFinite = true) (ht : t.isInteger = true) :
    t.Rounding x (t.convert? (.float x)) := by
  cases t <;> try cases ht
  case int32 => exact rounding_int32 finite
  case int64 => exact rounding_int64 finite

/-- What is clamped lies right above the type. -/
theorem IsClamped.not_hasInteger (h : t.IsClamped x) : ¬ t.HasInteger x.roundToInt := by
  obtain ⟨rfl, above⟩ := h
  rw [x.roundToInt_eq_above_iff.2 above]
  exact fun fits => absurd fits.2 (by decide)

/-- A finite double is converted to the integer nearest to it, and there is a failure exactly if
that is not an integer of the type: one double apart, which is converted to the greatest integer
though the nearest one is not of the type. -/
theorem convert_float (finite : x.isFinite = true) (ht : t.isInteger = true) :
    (∀ v, t.convert (.float x) = .ok v
      ↔ (∃ i : Int64, v = .int i ∧ IsNearest x.toRat i.toInt ∧ t.HasInteger i.toInt)
        ∨ t.IsClamped x ∧ v = .int (Int64.ofInt greatest))
    ∧ (t.convert (.float x) = .error ⟨(Value.float x).shown, t.name⟩
      ↔ (∃ n, IsNearest x.toRat n ∧ ¬ t.HasInteger n) ∧ ¬ t.IsClamped x) := by
  have rounding := rounding_convert? finite ht
  simp only [convert, Value.isNull, Bool.false_eq_true, if_false, Binary64.isNearest_toRat_iff,
    exists_eq_left]
  generalize t.convert? (.float x) = result at rounding ⊢
  cases rounding with
  | @nearest i rounds holds =>
    have inside : t.HasInteger x.roundToInt := rounds ▸ holds
    have unclamped : ¬ t.IsClamped x := fun clamped => clamped.not_hasInteger inside
    refine ⟨fun v => ⟨?_, ?_⟩, ?_, fun outside => absurd inside outside.1⟩
    · rintro ⟨⟩
      exact .inl ⟨i, rfl, rounds, holds⟩
    · rintro (⟨j, rfl, same, -⟩ | ⟨clamped, -⟩)
      · rw [Int64.toInt_inj.1 (same.trans rounds.symm)]
      · exact absurd clamped unclamped
    · rintro ⟨⟩
  | clamped above =>
    refine ⟨fun v => ⟨?_, ?_⟩, ?_, fun outside => absurd above outside.2⟩
    · rintro ⟨⟩
      exact .inr ⟨above, rfl⟩
    · rintro (⟨i, -, same, holds⟩ | ⟨-, rfl⟩)
      · exact absurd (same ▸ holds) above.not_hasInteger
      · rfl
    · rintro ⟨⟩
  | outside missing other =>
    refine ⟨fun v => ⟨?_, ?_⟩, fun _ => ⟨missing, other⟩, fun _ => rfl⟩
    · rintro ⟨⟩
    · rintro (⟨i, -, same, holds⟩ | ⟨clamped, -⟩)
      · exact absurd (same ▸ holds) missing
      · exact absurd clamped other

/-- Halfway between two and three it is the even one. -/
theorem convert_float_half : int32.convert (.float ⟨0x4004000000000000⟩) = .ok (.int 2) :=
  ((convert_float (by decide) rfl).1 _).2 <| .inl ⟨2, rfl, by
    rw [Binary64.isNearest_toRat_iff]
    decide +kernel, by decide, by decide⟩

/-- The double right above the greatest integer of 64 bits becomes that integer, which is not the
nearest one. -/
theorem convert_float_clamps :
    int64.convert (.float ⟨0x43E0000000000000⟩) = .ok (.int 9223372036854775807)
    ∧ IsNearest (Binary64.toRat ⟨0x43E0000000000000⟩) 9223372036854775808
    ∧ ¬ int64.HasInteger 9223372036854775808 := by
  refine ⟨by rfl, ?_, fun fits => absurd fits.2 (by decide)⟩
  rw [Binary64.isNearest_toRat_iff]
  decide +kernel

end FieldType

end DataGrid
