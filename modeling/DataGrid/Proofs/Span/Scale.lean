import DataGrid.Proofs.Outcome
import DataGrid.Proofs.Span

/-!
# Fractions without a scale

The power of ten by which a fraction of seconds counts is set by the bytes of its first nine
characters, before these are read. `Span.ComesTo` says at which fractions a text is read, and a
reading fails for want of a scale exactly if it comes to one whose characters take more than nine
bytes (`Span.readUnsigned_fails_iff`). For every other fraction the power and what it makes of the
digits are far within a word (`Span.natAbs_scaled_lt`).
-/

namespace DataGrid.Span

open Outcome (bind_eq_error)
open Text (splitFirst? splitAll splitFirst?_eq_some_iff splitFirst?_eq_none_iff
  splitAll_eq_cons_iff)

/-- A text that is read as an integer of 64 bits. -/
def IsInteger (t : List Char) : Prop := ∃ i, Integer.ofText? t = some i

/-- No mark stands in an integer. -/
theorem IsInteger.no_marks {t : List Char} (h : IsInteger t) : ':' ∉ t ∧ '.' ∉ t := by
  obtain ⟨i, hi⟩ := h
  exact ⟨Integer.not_mem_of_ofText? hi rfl (by decide) (by decide),
    Integer.not_mem_of_ofText? hi rfl (by decide) (by decide)⟩

/-- A fraction whose first nine characters take more than nine bytes. -/
def NoScale (fraction : List Char) : Prop := 9 < byteSize (fraction.take 9)

/-! ### Where a fraction stands -/

/-- A clock text that is read up to the fraction of its seconds. -/
def ClockComesTo (clock fraction : List Char) : Prop :=
  ∃ hours minutes whole more,
    clock = hours ++ ':' :: (minutes ++ ':' :: (whole ++ '.' :: fraction ++ more))
      ∧ IsInteger hours ∧ IsInteger minutes ∧ '.' ∉ whole ∧ ':' ∉ whole ∧ ':' ∉ fraction
      ∧ (more = [] ∨ ∃ rest, more = ':' :: rest)

/-- A text without its sign that is read up to a fraction: a clock text, or one behind days. -/
def ComesTo (body fraction : List Char) : Prop :=
  ClockComesTo body fraction
    ∨ ∃ days clock, body = days ++ '.' :: clock ∧ IsInteger days ∧ ClockComesTo clock fraction

/-- A text without the minus sign in front. -/
def withoutSign : List Char → List Char
  | '-' :: body => body
  | body => body

/-- The span of a text, given the one that is read behind its sign. -/
def turned : List Char → Span → Span
  | '-' :: _, sum => sum.neg
  | _, sum => sum

/-- A text is read behind its sign. -/
theorem read_eq (text : String) : read text
    = (readUnsigned (withoutSign (Text.trim text.toList))).map
      (turned (Text.trim text.toList)) := by
  rw [read]
  generalize Text.trim text.toList = t
  split
  next body =>
    rw [withoutSign]
    cases readUnsigned body <;> rfl
  next unsigned =>
    have same : withoutSign t = t := by
      rw [withoutSign]
      exact unsigned
    have kept : turned t = id := by
      funext sum
      rw [turned]
      · rfl
      · exact unsigned
    rw [same, kept]
    cases readUnsigned t <;> rfl

/-! ### Which parts fail -/

theorem part_eq_ok_iff {t : List Char} {n : Int} :
    part t = .ok n ↔ ∃ i, Integer.ofText? t = some i ∧ i.toInt = n := by
  rw [part]
  cases Integer.ofText? t <;> simp

theorem exists_part_eq_ok {t : List Char} : (∃ n, part t = .ok n) ↔ IsInteger t := by
  simp [part_eq_ok_iff, IsInteger]

theorem part_ne_scale (t : List Char) : part t ≠ .error .scaleOutOfRange := by
  rw [part]
  split <;> simp

theorem scale_fails_iff {fraction : List Char} :
    scale (fraction.take 9) = .error .scaleOutOfRange ↔ NoScale fraction := by
  rw [scale, NoScale]
  split
  next small => simp [small]
  next large => simp [Nat.not_le.1 large]

theorem secondsPart_fails_iff {t : List Char} :
    secondsPart t = .error .scaleOutOfRange
      ↔ ∃ whole fraction, splitFirst? '.' t = some (whole, fraction) ∧ NoScale fraction := by
  rw [secondsPart]
  cases splitFirst? '.' t with
  | none => simp [bind_eq_error, part_ne_scale]
  | some halves =>
    obtain ⟨whole, fraction⟩ := halves
    simp [bind_eq_error, part_ne_scale, scale_fails_iff]

theorem clock_fails_iff {hours : List Char} {parts : List (List Char)} :
    clock (hours :: parts) = .error .scaleOutOfRange
      ↔ ∃ minutes seconds more, parts = minutes :: seconds :: more ∧ IsInteger hours
        ∧ IsInteger minutes ∧ secondsPart seconds = .error .scaleOutOfRange := by
  have checked {rest : List (List Char)} {h m s n : Int} :
      (if rest.length ≤ 1 ∧ h ≤ 23 ∧ m ≤ 59 ∧ s ≤ 59 then .ok ⟨h, m, s, n⟩
        else .error .noSpan : Except ReadFault Clock) ≠ .error .scaleOutOfRange := by
    split <;> simp
  rcases parts with _ | ⟨minutes, _ | ⟨seconds, more⟩⟩
  · simp [clock]
  · simp only [clock, bind_eq_error, part_ne_scale, checked]
    simp
  · simp only [clock, bind_eq_error, part_ne_scale, checked, ← exists_part_eq_ok]
    simp

/-- A clock fails as it comes to a fraction without a scale. -/
theorem clock_splitAll_fails_iff {hours tail : List Char} (colon : ':' ∉ hours) :
    clock (hours :: splitAll ':' tail) = .error .scaleOutOfRange
      ↔ ∃ fraction, ClockComesTo (hours ++ ':' :: tail) fraction ∧ NoScale fraction := by
  rw [clock_fails_iff]
  constructor
  · rintro ⟨minutes, seconds, parts, htail, hhours, hminutes, fails⟩
    obtain ⟨-, ⟨-, none⟩ | ⟨rest, rfl, hrest⟩⟩ := splitAll_eq_cons_iff.1 htail
    · cases none
    obtain ⟨whole, fraction, hseconds, noScale⟩ := secondsPart_fails_iff.1 fails
    obtain ⟨rfl, point⟩ := splitFirst?_eq_some_iff.1 hseconds
    obtain ⟨here, stop⟩ := splitAll_eq_cons_iff.1 hrest.symm
    have apart : ':' ∉ whole ∧ ':' ∉ fraction := by simpa using here
    refine ⟨fraction, ?_, noScale⟩
    obtain ⟨rfl, -⟩ | ⟨after, rfl, -⟩ := stop
    · exact ⟨hours, minutes, whole, [], by rw [List.append_nil], hhours, hminutes, point, apart.1,
        apart.2, .inl rfl⟩
    · exact ⟨hours, minutes, whole, ':' :: after, rfl, hhours, hminutes, point, apart.1,
        apart.2, .inr ⟨after, rfl⟩⟩
  · rintro ⟨fraction, ⟨hours', minutes, whole, more, same, hhours, hminutes, point, hwhole,
      hfraction, stop⟩, noScale⟩
    -- a text has one first colon
    have first := splitFirst?_eq_some_iff.2 ⟨same, hhours.no_marks.1⟩
    rw [splitFirst?_eq_some_iff.2 ⟨rfl, colon⟩] at first
    cases first
    have fails : secondsPart (whole ++ '.' :: fraction) = .error .scaleOutOfRange :=
      secondsPart_fails_iff.2 ⟨whole, fraction, splitFirst?_eq_some_iff.2 ⟨rfl, point⟩, noScale⟩
    have here : ':' ∉ whole ++ '.' :: fraction := by simp [hwhole, hfraction]
    obtain ⟨parts, hparts⟩ : ∃ parts, splitAll ':' (whole ++ '.' :: fraction ++ more)
        = (whole ++ '.' :: fraction) :: parts := by
      rcases stop with rfl | ⟨rest, rfl⟩
      · exact ⟨[], splitAll_eq_cons_iff.2 ⟨here, .inl ⟨List.append_nil _, rfl⟩⟩⟩
      · exact ⟨_, splitAll_eq_cons_iff.2 ⟨here, .inr ⟨rest, rfl, rfl⟩⟩⟩
    exact ⟨minutes, _, parts, splitAll_eq_cons_iff.2 ⟨hminutes.no_marks.1, .inr ⟨_, rfl,
      hparts.symm⟩⟩, hhours, hminutes, fails⟩

/-- Behind the days, it is the clock that fails. -/
theorem readUnsigned_fails_iff_clock {head tail : List Char} (colon : ':' ∉ head) :
    readUnsigned (head ++ ':' :: tail) = .error .scaleOutOfRange
      ↔ ∃ hours, (splitFirst? '.' head = none ∧ head = hours
          ∨ ∃ days, splitFirst? '.' head = some (days, hours) ∧ IsInteger days)
        ∧ clock (hours :: splitAll ':' tail) = .error .scaleOutOfRange := by
  have bind_ok {α β : Type} (a : α) (f : α → Except ReadFault β) : (.ok a >>= f) = f a := rfl
  have summed {parts : List (List Char)} {next : Clock → Except ReadFault Span}
      (h : ∀ c, next c ≠ .error .scaleOutOfRange) :
      clock parts >>= next = .error .scaleOutOfRange
        ↔ clock parts = .error .scaleOutOfRange := by
    simp [bind_eq_error, h]
  rw [readUnsigned, splitFirst?_eq_some_iff.2 ⟨rfl, colon⟩]
  cases hhead : splitFirst? '.' head with
  | none =>
    simp only [hhead, bind_ok]
    rw [summed fun c => by split <;> simp]
    simp
  | some halves =>
    obtain ⟨days, hours⟩ := halves
    simp only [hhead, bind_ok]
    rw [bind_eq_error, or_iff_right (part_ne_scale days)]
    refine Iff.trans (exists_congr fun d => and_congr_right fun _ => summed fun c => ?_) ?_
    · split <;> simp
    · rw [exists_and_right, exists_part_eq_ok]
      simp

/-- A text without its sign fails for want of a scale exactly if it comes to a fraction that has
none. -/
theorem readUnsigned_fails_iff {body : List Char} :
    readUnsigned body = .error .scaleOutOfRange
      ↔ ∃ fraction, ComesTo body fraction ∧ NoScale fraction := by
  constructor
  · intro fails
    cases hbody : splitFirst? ':' body with
    | none =>
      rw [readUnsigned, hbody] at fails
      cases fails
    | some halves =>
      obtain ⟨head, tail⟩ := halves
      obtain ⟨rfl, colon⟩ := splitFirst?_eq_some_iff.1 hbody
      obtain ⟨hours, lead, hclock⟩ := (readUnsigned_fails_iff_clock colon).1 fails
      rcases lead with ⟨-, rfl⟩ | ⟨days, hhead, hdays⟩
      · obtain ⟨fraction, comesTo, noScale⟩ := (clock_splitAll_fails_iff colon).1 hclock
        exact ⟨fraction, .inl comesTo, noScale⟩
      · obtain ⟨rfl, -⟩ := splitFirst?_eq_some_iff.1 hhead
        have apart : ':' ∉ hours := fun h => colon (by simp [h])
        obtain ⟨fraction, comesTo, noScale⟩ := (clock_splitAll_fails_iff apart).1 hclock
        exact ⟨fraction, .inr ⟨days, hours ++ ':' :: tail, by simp, hdays, comesTo⟩, noScale⟩
  · rintro ⟨fraction, comesTo | ⟨days, rest, rfl, hdays, comesTo⟩, noScale⟩
    · have frame := comesTo
      obtain ⟨hours, minutes, whole, more, rfl, hhours, -⟩ := frame
      obtain ⟨colon, point⟩ := hhours.no_marks
      exact (readUnsigned_fails_iff_clock colon).2 ⟨hours,
        .inl ⟨splitFirst?_eq_none_iff.2 point, rfl⟩,
        (clock_splitAll_fails_iff colon).2 ⟨fraction, comesTo, noScale⟩⟩
    · have frame := comesTo
      obtain ⟨hours, minutes, whole, more, rfl, hhours, -⟩ := frame
      obtain ⟨colon, -⟩ := hhours.no_marks
      obtain ⟨colon', point⟩ := hdays.no_marks
      have lead : ':' ∉ days ++ '.' :: hours := by simp [colon, colon']
      rw [← List.cons_append, ← List.append_assoc]
      exact (readUnsigned_fails_iff_clock lead).2 ⟨hours,
        .inr ⟨days, splitFirst?_eq_some_iff.2 ⟨rfl, point⟩, hdays⟩,
        (clock_splitAll_fails_iff colon).2 ⟨fraction, comesTo, noScale⟩⟩

/-- A sign does not matter to a failure. -/
theorem read_fails_iff {text : String} :
    read text = .error .scaleOutOfRange
      ↔ ∃ fraction, ComesTo (withoutSign (Text.trim text.toList)) fraction ∧ NoScale fraction := by
  rw [← readUnsigned_fails_iff, read_eq, Outcome.map_eq_error]

/-! ### Numbers in range -/

/-- Digits with a scale count for less than a second. -/
theorem natAbs_scaled_lt {digits : List Char} {count : Int64} (small : byteSize digits ≤ 9)
    (h : Integer.ofText? digits = some count) :
    (count.toInt * (Integer.powerOfTen (9 - byteSize digits) : Int)).natAbs < 10 ^ 9 := by
  have few : count.toInt.natAbs < 10 ^ byteSize digits :=
    Nat.lt_of_lt_of_le (Integer.natAbs_lt_of_ofText? h)
      (Nat.pow_le_pow_right (by decide) (length_le_byteSize digits))
  calc (count.toInt * (Integer.powerOfTen (9 - byteSize digits) : Int)).natAbs
      = count.toInt.natAbs * 10 ^ (9 - byteSize digits) := by
        rw [Int.natAbs_mul, Int.natAbs_natCast]
        rfl
    _ < 10 ^ byteSize digits * 10 ^ (9 - byteSize digits) :=
        Nat.mul_lt_mul_of_pos_right few (Nat.pow_pos (by decide))
    _ = 10 ^ 9 := by rw [← Nat.pow_add, Nat.add_sub_cancel' small]

/-- A reading fails for want of a scale exactly if it comes to a fraction that has none. Every other
fraction that it comes to has a scale, and counts for a number of nanoseconds that fits. -/
theorem read_fails_iff_noScale (text : String) :
    (read text = .error .scaleOutOfRange
        ↔ ∃ fraction, ComesTo (withoutSign (Text.trim text.toList)) fraction ∧ NoScale fraction)
      ∧ ∀ fraction, ComesTo (withoutSign (Text.trim text.toList)) fraction → ¬NoScale fraction →
        ∃ unit, scale (fraction.take 9) = .ok unit ∧ Integer.Fits unit
          ∧ ∀ count, part (fraction.take 9) = .ok count → Integer.Fits (count * unit) := by
  refine ⟨read_fails_iff, fun fraction _ some => ?_⟩
  have small : byteSize (fraction.take 9) ≤ 9 := Nat.not_lt.1 some
  have unit : Integer.powerOfTen (9 - byteSize (fraction.take 9)) ≤ 10 ^ 9 :=
    Nat.pow_le_pow_right (by decide) (Nat.sub_le _ _)
  refine ⟨_, if_pos small, fits_of_le unit (by decide), fun count hcount => ?_⟩
  obtain ⟨i, hi, rfl⟩ := part_eq_ok_iff.1 hcount
  have less := natAbs_scaled_lt small hi
  rw [Integer.Fits, Integer.least, Integer.greatest]
  omega

/-- Five letters of two bytes each have no scale. -/
theorem read_fails_letters : read "00:00:00.ééééé" = .error .scaleOutOfRange := by
  rfl

end DataGrid.Span
