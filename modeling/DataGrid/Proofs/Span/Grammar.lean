import DataGrid.Proofs.Span.Scale
import Mathlib.Algebra.Order.Ring.Int

/-!
# The grammar of spans

A span is written as `[-][d.]hh:mm[:ss[.fffffff]]`. `Span.Form` is this grammar behind the sign,
with two parameters: the texts that are numbers, and the texts that may stand behind the ninth digit
of a fraction.

* With digits for both it is the grammar of `Span.Documented` texts.
* The reader takes more: a number may have a sign of its own, and what stands behind the ninth
  character of a fraction is not looked at (`Span.read_eq_ok_iff`).
* Both agree on texts that are `Span.Plain`, and on no others (`Span.ofText?_grammar`).
-/

namespace DataGrid.Span

open Outcome (bind_eq_ok)
open Text (splitFirst? splitAll splitFirst?_eq_some_iff splitFirst?_eq_none_iff
  splitAll_eq_cons_iff splitAll_ne_nil)

/-! ### Numbers -/

/-- One or more digits, and the number that they write. -/
structure Digits (t : List Char) (n : Int) : Prop where
  /-- there is a digit -/
  some : t ≠ []
  /-- there is nothing else -/
  digits : AllDigits t
  /-- the number -/
  value : n = Nat.ofDigitChars 10 t 0

/-- Digits, perhaps behind a sign, and the integer of 64 bits that they write. -/
inductive Numeral : List Char → Int → Prop where
  /-- digits alone -/
  | plain {t : List Char} {n : Int} (h : Digits t n) (fits : Integer.Fits n) : Numeral t n
  /-- digits behind a plus sign -/
  | plus {t : List Char} {n : Int} (h : Digits t n) (fits : Integer.Fits n) : Numeral ('+' :: t) n
  /-- digits behind a minus sign -/
  | minus {t : List Char} {n : Int} (h : Digits t n) (fits : Integer.Fits (-n)) :
    Numeral ('-' :: t) (-n)

theorem Digits.nonneg {t : List Char} {n : Int} (h : Digits t n) : 0 ≤ n :=
  h.value ▸ Int.natCast_nonneg _

/-- Digits write less than the power of ten with as many zeros. -/
theorem Digits.lt {t : List Char} {n : Int} (h : Digits t n) : n < 10 ^ t.length := by
  have bound := Integer.ofDigitChars_lt h.digits 0
  rw [Nat.zero_add, Nat.one_mul] at bound
  rw [h.value]
  exact_mod_cast bound

theorem naturalOfText?_eq_some_iff {t : List Char} {m : Nat} :
    Integer.naturalOfText? t = some m ↔ Digits t m := by
  constructor
  · intro h
    obtain ⟨digits, value⟩ := Integer.allDigits_of_naturalOfText? h
    refine ⟨?_, digits, value ▸ rfl⟩
    rintro rfl
    cases h
  · rintro ⟨some, digits, value⟩
    have empty : t.isEmpty = false := by simpa using some
    rw [Integer.naturalOfText?, empty, List.all_eq_true.2 digits, Int.ofNat_inj.1 value]
    rfl

/-- A part is read as an integer exactly if it is a numeral. -/
theorem part_eq_ok_iff_numeral {t : List Char} {n : Int} : part t = .ok n ↔ Numeral t n := by
  have whole : part t = .ok n ↔ Integer.unboundedOfText? t = some n ∧ Integer.Fits n := by
    rw [part_eq_ok_iff]
    constructor
    · rintro ⟨i, hi, rfl⟩
      obtain ⟨m, hm, narrow⟩ := Option.bind_eq_some_iff.1 hi
      exact ⟨Integer.narrow?_eq_some_iff.1 narrow ▸ hm, Integer.fits_toInt i⟩
    · rintro ⟨hn, fits⟩
      have word := Integer.toInt_ofInt_of_fits fits
      exact ⟨Int64.ofInt n, Option.bind_eq_some_iff.2
        ⟨n, hn, Integer.narrow?_eq_some_iff.2 word⟩, word⟩
  -- digits are read as a natural, which counts as an integer
  have natural {ds : List Char} {m : Int} :
      (Integer.naturalOfText? ds >>= fun k => pure (k : Int)) = some m ↔ Digits ds m := by
    refine Option.bind_eq_some_iff.trans ⟨?_, fun h => ?_⟩
    · rintro ⟨k, hk, same⟩
      cases same
      exact naturalOfText?_eq_some_iff.1 hk
    · exact ⟨_, naturalOfText?_eq_some_iff.2 ⟨h.some, h.digits, rfl⟩, h.value ▸ rfl⟩
  rw [whole]
  constructor
  · rintro ⟨h, fits⟩
    unfold Integer.unboundedOfText? at h
    split at h
    · obtain ⟨m, hm, rfl⟩ := Option.map_eq_some_iff.1 h
      exact .minus (natural.1 hm) fits
    · obtain ⟨m, hm, rfl⟩ := Option.map_eq_some_iff.1 h
      exact .plus (natural.1 hm) fits
    · obtain ⟨m, hm, rfl⟩ := Option.map_eq_some_iff.1 h
      exact .plain (natural.1 hm) fits
  · intro h
    cases h with
    | plain h fits =>
      have read := naturalOfText?_eq_some_iff.2 ⟨h.some, h.digits, rfl⟩
      exact ⟨h.value ▸ Integer.unboundedOfText?_of_allDigits h.digits read, fits⟩
    | plus h fits => exact ⟨Option.map_eq_some_iff.2 ⟨_, natural.2 h, rfl⟩, fits⟩
    | minus h fits => exact ⟨Option.map_eq_some_iff.2 ⟨_, natural.2 h, rfl⟩, fits⟩

/-- No mark stands in a numeral. -/
theorem Numeral.no_marks {t : List Char} {n : Int} (h : Numeral t n) : ':' ∉ t ∧ '.' ∉ t :=
  (exists_part_eq_ok.1 ⟨n, part_eq_ok_iff_numeral.2 h⟩).no_marks

/-- A sign is one byte, as digits are. -/
theorem Numeral.byteSize {t : List Char} {n : Int} (h : Numeral t n) : byteSize t = t.length := by
  cases h with
  | plain h => exact byteSize_of_allDigits h.digits
  | plus h | minus h =>
    rw [byteSize_cons, byteSize_of_allDigits h.digits, List.length_cons, Nat.add_comm]
    rfl

/-- A numeral of digits and marks alone is one of digits. -/
theorem Numeral.digits {t : List Char} {n : Int} (h : Numeral t n)
    (plain : ∀ c ∈ t, c.isDigit = true ∨ c = '.' ∨ c = ':') : Digits t n := by
  cases h with
  | plain h => exact h
  | plus | minus => simpa using plain _ List.mem_cons_self

/-! ### Texts -/

section Grammar

variable (number : List Char → Int → Prop) (rest : List Char → Prop)

/-- The days in front of a clock: none, or a number and a point. -/
inductive Lead : List Char → Int → Prop where
  /-- no days -/
  | none : Lead [] 0
  /-- some days -/
  | days {t : List Char} {n : Int} (h : number t n) : Lead (t ++ ['.']) n

/-- A fraction of a second in nanoseconds: the number in its first nine characters, counted by the
last of them. -/
structure Fraction (t : List Char) (nanos : Int) : Prop where
  /-- the number and what it counts for -/
  number : ∃ n, number (t.take 9) n ∧ nanos = n * 10 ^ (9 - (t.take 9).length)
  /-- what stands behind the ninth character -/
  rest : rest (t.drop 9)

/-- The seconds behind a clock: none, or a number behind a colon, with or without a fraction. -/
inductive Seconds : List Char → Int → Int → Prop where
  /-- no seconds -/
  | none : Seconds [] 0 0
  /-- whole seconds -/
  | whole {t : List Char} {n : Int} (h : number t n) : Seconds (':' :: t) n 0
  /-- seconds with a fraction -/
  | parted {t f : List Char} {n nanos : Int} (h : number t n) (hf : Fraction number rest f nanos) :
    Seconds (':' :: (t ++ '.' :: f)) n nanos

/-- Days and a clock: `[d.]hh:mm[:ss[.fffffff]]`. -/
inductive Form : List Char → Int → Clock → Prop where
  /-- the parts one after another, with bounds for those of the clock -/
  | mk {lead hours minutes seconds : List Char} {days : Int} {c : Clock}
    (hlead : Lead number lead days) (hhours : number hours c.hours)
    (hminutes : number minutes c.minutes) (hseconds : Seconds number rest seconds c.seconds c.nanos)
    (bounds : c.hours ≤ 23 ∧ c.minutes ≤ 59 ∧ c.seconds ≤ 59) :
    Form (lead ++ hours ++ ':' :: (minutes ++ seconds)) days c

end Grammar

/-- What days and a clock stand for, part by part. -/
def amounts (days : Int) (c : Clock) : List Int :=
  [days * day, c.hours * hour, c.minutes * minute, c.seconds * second, c.nanos]

/-- The sign of a text. -/
def signOf : List Char → Int
  | '-' :: _ => -1
  | _ => 1

/-- The texts of the grammar in which all parts are digits, and the nanoseconds that they denote. -/
def Documented (t : List Char) (nanos : Int) : Prop :=
  ∃ days c, Form Digits AllDigits (withoutSign t) days c ∧ nanos = signOf t * (amounts days c).sum

/-- A text of digits and marks, with at most one point behind the first colon. -/
def Plain (body : List Char) : Prop :=
  (∀ c ∈ body, c.isDigit = true ∨ c = '.' ∨ c = ':') ∧ (body.dropWhile (· != ':')).count '.' ≤ 1

/-- A text without a colon, as which the reader takes what stands behind a fraction. -/
def NoColon (t : List Char) : Prop := ':' ∉ t

variable {number number' : List Char → Int → Prop} {rest rest' : List Char → Prop}
variable {body : List Char} {days : Int} {c : Clock}

/-- Parts of one kind are parts of another if those of the text at hand are. -/
theorem Form.imp (h : Form number rest body days c)
    (parts : ∀ t, t ⊆ body → ∀ n ∈ [days, c.hours, c.minutes, c.seconds], number t n → number' t n)
    (fraction : ∀ before f, body = before ++ '.' :: f → ':' ∈ before →
      Fraction number rest f c.nanos → Fraction number' rest' f c.nanos) :
    Form number' rest' body days c := by
  obtain @⟨lead, hours, minutes, seconds, _, _, hlead, hhours, hminutes, hseconds, bounds⟩ := h
  have within {t : List Char} {n : Int} (sub : t ⊆ _) (hn : n ∈ _) (h : number t n) :
      number' t n := parts t sub n hn h
  refine .mk ?_ (within (fun _ h => by simp [h]) (by simp) hhours)
    (within (fun _ h => by simp [h]) (by simp) hminutes) ?_ bounds
  · cases hlead with
    | none => exact .none
    | days h => exact .days (within (fun _ h => by simp [h]) (by simp) h)
  · generalize hs : c.seconds = s, hk : c.nanos = k at hseconds
    cases hseconds with
    | none => exact .none
    | whole h => exact .whole (within (fun _ h => by simp [h]) (by simp [hs]) h)
    | @parted t f _ _ h hf =>
      refine .parted (within (fun _ h => by simp [h]) (by simp [hs]) h) ?_
      rw [← hk] at hf ⊢
      exact fraction (lead ++ hours ++ ':' :: (minutes ++ ':' :: t)) f (by simp) (by simp) hf

/-! ### Reading -/

theorem seconds_cons_iff {t : List Char} {s k : Int} :
    Seconds number rest (':' :: t) s k ↔ (number t s ∧ k = 0)
      ∨ ∃ whole f, t = whole ++ '.' :: f ∧ number whole s ∧ Fraction number rest f k := by
  constructor
  · intro h
    cases h with
    | whole h => exact .inl ⟨h, rfl⟩
    | parted h hf => exact .inr ⟨_, _, rfl, h, hf⟩
  · rintro (⟨h, rfl⟩ | ⟨whole, f, rfl, h, hf⟩)
    · exact .whole h
    · exact .parted h hf

/-- The first nine characters of a fraction are read and scaled. -/
theorem fraction_iff {f : List Char} {k : Int} :
    Fraction Numeral NoColon f k ↔ ':' ∉ f ∧ ∃ unit n, scale (f.take 9) = .ok unit
      ∧ part (f.take 9) = .ok n ∧ k = n * unit := by
  have unit {n : Int} (h : Numeral (f.take 9) n) :
      scale (f.take 9) = .ok (10 ^ (9 - (f.take 9).length)) := by
    have short : (f.take 9).length ≤ 9 := List.length_take_le 9 f
    rw [scale, h.byteSize, if_pos short]
    exact congrArg Except.ok (Int.natCast_pow 10 _)
  constructor
  · rintro ⟨⟨n, hn, rfl⟩, hrest⟩
    refine ⟨?_, _, n, unit hn, part_eq_ok_iff_numeral.2 hn, rfl⟩
    rw [← List.take_append_drop 9 f, List.mem_append, not_or]
    exact ⟨hn.no_marks.1, hrest⟩
  · rintro ⟨colon, u, n, hu, hn, rfl⟩
    have hn := part_eq_ok_iff_numeral.1 hn
    cases hu.symm.trans (unit hn)
    exact ⟨⟨n, hn, rfl⟩, fun h => colon (List.mem_of_mem_drop h)⟩

/-- The seconds between two colons are read with their fraction. -/
theorem secondsPart_eq_ok_iff {t : List Char} {s k : Int} (colon : ':' ∉ t) :
    secondsPart t = .ok (s, k) ↔ Seconds Numeral NoColon (':' :: t) s k := by
  rw [secondsPart, seconds_cons_iff]
  cases hsplit : splitFirst? '.' t with
  | none =>
    have point := splitFirst?_eq_none_iff.1 hsplit
    simp only [bind_eq_ok, part_eq_ok_iff_numeral, Except.ok.injEq, Prod.mk.injEq]
    constructor
    · rintro ⟨_, h, rfl, rfl⟩
      exact .inl ⟨h, rfl⟩
    · rintro (⟨h, rfl⟩ | ⟨whole, f, rfl, -⟩)
      · exact ⟨s, h, rfl, rfl⟩
      · simp at point
  | some halves =>
    obtain ⟨whole, f⟩ := halves
    obtain ⟨rfl, point⟩ := splitFirst?_eq_some_iff.1 hsplit
    simp only [bind_eq_ok, Except.ok.injEq, Prod.mk.injEq]
    constructor
    · rintro ⟨unit, hunit, _, hs, n, hn, rfl, rfl⟩
      have apart : ':' ∉ f := fun h => colon (by simp [h])
      exact .inr ⟨whole, f, rfl, part_eq_ok_iff_numeral.1 hs,
        fraction_iff.2 ⟨apart, unit, n, hunit, hn, rfl⟩⟩
    · rintro (⟨h, -⟩ | ⟨whole', f', same, h, hf⟩)
      · exact absurd h.no_marks.2 (by simp)
      · -- a text has one first point
        rw [splitFirst?_eq_some_iff.2 ⟨same, h.no_marks.2⟩] at hsplit
        cases hsplit
        obtain ⟨-, unit, n, hunit, hn, rfl⟩ := fraction_iff.1 hf
        exact ⟨unit, hunit, s, part_eq_ok_iff_numeral.2 h, n, hn, rfl, rfl⟩

theorem no_colon_of_seconds {t : List Char} {s k : Int}
    (h : Seconds Numeral NoColon (':' :: t) s k) : ':' ∉ t := by
  rcases seconds_cons_iff.1 h with ⟨h, -⟩ | ⟨whole, f, rfl, h, hf⟩
  · exact h.no_marks.1
  · simp [h.no_marks.1, (fraction_iff.1 hf).1]

/-- Hours, minutes and no more than one further part are read. -/
theorem clock_cons_eq_ok_iff {hours minutes : List Char} {more : List (List Char)} :
    clock (hours :: minutes :: more) = .ok c ↔ Numeral hours c.hours ∧ Numeral minutes c.minutes
      ∧ (more = [] ∧ c.seconds = 0 ∧ c.nanos = 0
        ∨ ∃ seconds, more = [seconds] ∧ secondsPart seconds = .ok (c.seconds, c.nanos))
      ∧ (c.hours ≤ 23 ∧ c.minutes ≤ 59 ∧ c.seconds ≤ 59) := by
  obtain ⟨h, m, s, k⟩ := c
  have checked {h' m' s' k' : Int} : (if more.length ≤ 1 ∧ h' ≤ 23 ∧ m' ≤ 59 ∧ s' ≤ 59 then
        .ok ⟨h', m', s', k'⟩ else .error .noSpan : Except ReadFault Clock) = .ok ⟨h, m, s, k⟩
      ↔ (more.length ≤ 1 ∧ h ≤ 23 ∧ m ≤ 59 ∧ s ≤ 59) ∧ h' = h ∧ m' = m ∧ s' = s ∧ k' = k := by
    split
    next within =>
      simp only [Except.ok.injEq, Clock.mk.injEq]
      exact ⟨fun same => by obtain ⟨rfl, rfl, rfl, rfl⟩ := same; exact ⟨within, rfl, rfl, rfl, rfl⟩,
        fun same => same.2⟩
    next beyond =>
      refine iff_of_false (fun same => nomatch same) fun same => beyond ?_
      obtain ⟨within, rfl, rfl, rfl, rfl⟩ := same
      exact within
  rcases more with _ | ⟨seconds, _ | ⟨another, more⟩⟩
  · simp only [clock, bind_eq_ok, part_eq_ok_iff_numeral]
    constructor
    · rintro ⟨h', hh, m', hm, _, ⟨⟩, last⟩
      obtain ⟨⟨-, bounds⟩, rfl, rfl, rfl, rfl⟩ := checked.1 last
      exact ⟨hh, hm, .inl ⟨trivial, rfl, rfl⟩, bounds⟩
    · rintro ⟨hh, hm, ⟨-, hs, hk⟩ | ⟨_, none, -⟩, bounds⟩
      · exact ⟨h, hh, m, hm, _, rfl,
          checked.2 ⟨⟨Nat.zero_le 1, bounds⟩, rfl, rfl, hs.symm, hk.symm⟩⟩
      · cases none
  · simp only [clock, bind_eq_ok, part_eq_ok_iff_numeral]
    constructor
    · rintro ⟨h', hh, m', hm, ⟨s', k'⟩, hs, last⟩
      obtain ⟨⟨-, bounds⟩, rfl, rfl, rfl, rfl⟩ := checked.1 last
      exact ⟨hh, hm, .inr ⟨seconds, rfl, hs⟩, bounds⟩
    · rintro ⟨hh, hm, ⟨⟨⟩, -⟩ | ⟨_, same, hs⟩, bounds⟩
      cases same
      exact ⟨h, hh, m, hm, (s, k), hs, checked.2 ⟨⟨Nat.le_refl 1, bounds⟩, rfl, rfl, rfl, rfl⟩⟩
  · simp only [clock, bind_eq_ok]
    refine iff_of_false ?_ ?_
    · rintro ⟨h', -, m', -, ⟨s', k'⟩, -, last⟩
      have few := (checked.1 last).1.1
      simp at few
    · rintro ⟨-, -, ⟨⟨⟩, -⟩ | ⟨_, ⟨⟩, -⟩, -⟩

/-- What stands behind the first colon is read as minutes and seconds. -/
theorem clock_eq_ok_iff {hours tail : List Char} :
    clock (hours :: splitAll ':' tail) = .ok c ↔ ∃ minutes seconds, tail = minutes ++ seconds
      ∧ Numeral hours c.hours ∧ Numeral minutes c.minutes
      ∧ Seconds Numeral NoColon seconds c.seconds c.nanos
      ∧ (c.hours ≤ 23 ∧ c.minutes ≤ 59 ∧ c.seconds ≤ 59) := by
  constructor
  · intro h
    cases htail : splitAll ':' tail with
    | nil => exact absurd htail (splitAll_ne_nil _ _)
    | cons minutes more =>
      rw [htail, clock_cons_eq_ok_iff] at h
      obtain ⟨hh, hm, hmore, bounds⟩ := h
      obtain ⟨-, ⟨rfl, rfl⟩ | ⟨r, rfl, rfl⟩⟩ := splitAll_eq_cons_iff.1 htail
      · obtain ⟨-, hs, hk⟩ | ⟨_, ⟨⟩, -⟩ := hmore
        refine ⟨tail, [], (List.append_nil _).symm, hh, hm, ?_, bounds⟩
        rw [hs, hk]
        exact .none
      · obtain ⟨none, -⟩ | ⟨seconds, one, hs⟩ := hmore
        · exact absurd none (splitAll_ne_nil _ _)
        obtain ⟨colon, ⟨rfl, -⟩ | ⟨_, -, more⟩⟩ := splitAll_eq_cons_iff.1 one
        · exact ⟨minutes, ':' :: r, rfl, hh, hm, (secondsPart_eq_ok_iff colon).1 hs, bounds⟩
        · exact absurd more.symm (splitAll_ne_nil _ _)
  · rintro ⟨minutes, seconds, rfl, hh, hm, hs, bounds⟩
    have colon := hm.no_marks.1
    cases seconds with
    | nil =>
      rw [splitAll_eq_cons_iff.2 ⟨colon, .inl ⟨List.append_nil _, rfl⟩⟩, clock_cons_eq_ok_iff]
      refine ⟨hh, hm, .inl ⟨rfl, ?_⟩, bounds⟩
      generalize c.seconds = s, c.nanos = k at hs ⊢
      cases hs
      exact ⟨rfl, rfl⟩
    | cons mark seconds =>
      obtain rfl : mark = ':' := by
        generalize c.nanos = k at hs
        cases hs <;> rfl
      have last := no_colon_of_seconds hs
      have parts : splitAll ':' (minutes ++ ':' :: seconds) = [minutes, seconds] :=
        splitAll_eq_cons_iff.2 ⟨colon, .inr ⟨seconds, rfl,
          (splitAll_eq_cons_iff.2 ⟨last, .inl ⟨rfl, rfl⟩⟩).symm⟩⟩
      rw [parts, clock_cons_eq_ok_iff]
      exact ⟨hh, hm, .inr ⟨seconds, rfl, (secondsPart_eq_ok_iff last).2 hs⟩, bounds⟩

/-- A clock behind days is in the form of a span. -/
theorem form_of_clock {lead hours tail : List Char} {days : Int} {c : Clock}
    (hlead : Lead Numeral lead days) (hc : clock (hours :: splitAll ':' tail) = .ok c) :
    Form Numeral NoColon (lead ++ hours ++ ':' :: tail) days c := by
  obtain ⟨minutes, seconds, rfl, hh, hm, hs, bounds⟩ := clock_eq_ok_iff.1 hc
  exact .mk hlead hh hm hs bounds

/-- A text without its sign is read exactly if it is in the form of a span, and its parts add up. -/
theorem readUnsigned_eq_ok_iff {sum : Span} :
    readUnsigned body = .ok sum
      ↔ ∃ days c, Form Numeral NoColon body days c ∧ total? days c = some sum := by
  constructor
  · intro h
    rw [readUnsigned] at h
    cases hbody : splitFirst? ':' body with
    | none => rw [hbody] at h; cases h
    | some halves =>
      obtain ⟨head, tail⟩ := halves
      obtain ⟨rfl, -⟩ := splitFirst?_eq_some_iff.1 hbody
      simp only [hbody] at h
      cases hhead : splitFirst? '.' head with
      | none =>
        rw [hhead] at h
        have h : (clock (head :: splitAll ':' tail) >>= _) = .ok sum := h
        obtain ⟨c, hc, last⟩ := bind_eq_ok.1 h
        have noDays : Lead Numeral [] 0 := .none
        refine ⟨0, c, form_of_clock noDays hc, ?_⟩
        cases hsum : total? 0 c <;> rw [hsum] at last <;> cases last
        rfl
      | some parts =>
        obtain ⟨before, hours⟩ := parts
        obtain ⟨rfl, -⟩ := splitFirst?_eq_some_iff.1 hhead
        rw [hhead] at h
        obtain ⟨days, hd, h⟩ := bind_eq_ok.1 h
        have h : (clock (hours :: splitAll ':' tail) >>= _) = .ok sum := h
        obtain ⟨c, hc, last⟩ := bind_eq_ok.1 h
        have form := form_of_clock (.days (part_eq_ok_iff_numeral.1 hd)) hc
        rw [List.append_assoc before, List.singleton_append] at form
        refine ⟨days, c, form, ?_⟩
        cases hsum : total? days c <;> rw [hsum] at last <;> cases last
        rfl
  · rintro ⟨days, c, ⟨hlead, hh, hm, hs, bounds⟩, sum⟩
    have read := clock_eq_ok_iff.2 ⟨_, _, rfl, hh, hm, hs, bounds⟩
    obtain ⟨colon, point⟩ := hh.no_marks
    cases hlead with
    | none =>
      exact readUnsigned_of_parts (splitFirst?_eq_some_iff.2 ⟨rfl, colon⟩)
        (.inl ⟨rfl, splitFirst?_eq_none_iff.2 point, rfl⟩) read sum
    | days hd =>
      obtain ⟨colon', point'⟩ := hd.no_marks
      exact readUnsigned_of_parts (splitFirst?_eq_some_iff.2 ⟨rfl, by simp [colon, colon']⟩)
        (.inr ⟨_, splitFirst?_eq_some_iff.2 ⟨by simp, point'⟩, part_eq_ok_iff_numeral.2 hd⟩)
        read sum

/-! ### Adding up -/

/-- Whether amounts can be added to a sum one after another: each is in the range of spans, and so
is every sum on the way. -/
def AddsUp (sum : Int) : List Int → Prop
  | [] => True
  | n :: ns => InRange n ∧ InRange (sum + n) ∧ AddsUp (sum + n) ns

theorem ofNanos?_eq_some_iff {n : Int} {a : Span} : ofNanos? n = some a ↔ a.nanos = n := by
  rw [ofNanos?]
  constructor
  · intro h
    split at h
    · cases h
      rfl
    · cases h
  · rintro rfl
    exact dif_pos a.inRange

theorem exists_nanos_iff {n : Int} {p : Span → Prop} :
    (∃ a : Span, a.nanos = n ∧ p a) ↔ ∃ h : InRange n, p ⟨n, h⟩ := by
  constructor
  · rintro ⟨a, rfl, hp⟩
    exact ⟨a.inRange, hp⟩
  · rintro ⟨h, hp⟩
    exact ⟨_, rfl, hp⟩

/-- Days and a clock are added up if all their amounts and all sums on the way are in range. -/
theorem total?_eq_some_iff {sum : Span} : total? days c = some sum
    ↔ AddsUp 0 (amounts days c) ∧ sum.nanos = (amounts days c).sum := by
  simp only [total?, add?, Option.bind_eq_bind, Option.bind_eq_some_iff, ofNanos?_eq_some_iff,
    exists_nanos_iff, exists_prop, AddsUp, amounts, List.sum_cons, List.sum_nil, Int.zero_add,
    Int.add_zero, Int.add_assoc, and_true]
  constructor
  · rintro ⟨hd, hh, hdh, hm, hdhm, hs, hdhms, hn, same⟩
    exact ⟨⟨hd, hd, hh, hdh, hm, hdhm, hs, hdhms, hn, same ▸ sum.inRange⟩, same⟩
  · rintro ⟨⟨hd, -, hh, hdh, hm, hdhm, hs, hdhms, hn, -⟩, same⟩
    exact ⟨hd, hh, hdh, hm, hdhm, hs, hdhms, hn, same⟩

theorem AddsUp.inRange {sum : Int} {ns : List Int} (h : AddsUp sum ns) (start : InRange sum) :
    InRange (sum + ns.sum) := by
  induction ns generalizing sum with
  | nil => rwa [List.sum_nil, Int.add_zero]
  | cons n ns ih =>
    rw [List.sum_cons, ← Int.add_assoc]
    exact ih h.2.2 h.2.1

/-! ### Whole texts -/

/-- The sign in front turns the span that is read behind it. -/
theorem nanos_turned (t : List Char) (sum : Span) :
    (turned t sum).nanos = signOf t * sum.nanos := by
  rw [turned.eq_def]
  split
  next => exact (Int.neg_one_mul _).symm
  next unsigned =>
    have sign : signOf t = 1 := by
      rw [signOf]
      exact unsigned
    rw [sign, Int.one_mul]

/-- A text is read as the span behind its sign, turned by it. -/
theorem read_eq_ok_iff_unsigned {text : String} {span : Span} :
    read text = .ok span ↔ ∃ sum, readUnsigned (withoutSign (Text.trim text.toList)) = .ok sum
      ∧ span.nanos = signOf (Text.trim text.toList) * sum.nanos := by
  have same (a b : Span) : a = b ↔ b.nanos = a.nanos := by
    rw [Span.mk.injEq, eq_comm]
  rw [read_eq, Outcome.map_eq_ok]
  simp only [same, nanos_turned]

/-- A text is read exactly if it is in the form of a span behind its sign, with numerals for its
parts, and these add up. -/
theorem read_eq_ok_iff {text : String} {span : Span} :
    read text = .ok span
      ↔ ∃ days c, Form Numeral NoColon (withoutSign (Text.trim text.toList)) days c
        ∧ AddsUp 0 (amounts days c)
        ∧ span.nanos = signOf (Text.trim text.toList) * (amounts days c).sum := by
  rw [read_eq_ok_iff_unsigned]
  simp only [readUnsigned_eq_ok_iff, total?_eq_some_iff]
  constructor
  · rintro ⟨sum, ⟨days, c, form, adds, hsum⟩, same⟩
    exact ⟨days, c, form, adds, hsum ▸ same⟩
  · rintro ⟨days, c, form, adds, same⟩
    have within := adds.inRange (by decide)
    rw [Int.zero_add] at within
    exact ⟨⟨_, within⟩, ⟨days, c, form, adds, rfl⟩, same⟩

/-! ### Documented texts -/

/-- Parts of digits are not negative. -/
theorem Form.nonneg (h : Form Digits rest body days c) :
    0 ≤ days ∧ 0 ≤ c.hours ∧ 0 ≤ c.minutes ∧ 0 ≤ c.seconds ∧ 0 ≤ c.nanos := by
  obtain ⟨hlead, hhours, hminutes, hseconds, -⟩ := h
  refine ⟨?_, hhours.nonneg, hminutes.nonneg, ?_⟩
  · cases hlead with
    | none => exact Int.le_refl 0
    | days h => exact h.nonneg
  · generalize c.seconds = s, c.nanos = k at hseconds ⊢
    cases hseconds with
    | none => exact ⟨Int.le_refl 0, Int.le_refl 0⟩
    | whole h => exact ⟨h.nonneg, Int.le_refl 0⟩
    | parted h hf =>
      obtain ⟨n, hn, rfl⟩ := hf.number
      exact ⟨h.nonneg, Int.mul_nonneg hn.nonneg (Int.pow_nonneg (by decide))⟩

/-- Days that make up no more than a span, and what is bounded, are integers of 64 bits. -/
theorem Form.fits {sum : Span} (h : Form Digits rest body days c)
    (hsum : sum.nanos = (amounts days c).sum) :
    ∀ n ∈ [days, c.hours, c.minutes, c.seconds], Integer.Fits n := by
  obtain ⟨hdays, hhours, hminutes, hseconds, hnanos⟩ := h.nonneg
  obtain ⟨-, -, -, -, bounds⟩ := h
  obtain ⟨hday, hhour, hminute, hsecond⟩ := units_eq
  have below := sum.inRange.2
  simp only [amounts, List.sum_cons, List.sum_nil, hday, hhour, hminute, hsecond] at hsum
  rw [longest, milli, Integer.greatest] at below
  simp only [List.mem_cons, List.not_mem_nil, or_false, Integer.Fits, Integer.least,
    Integer.greatest]
  rintro n (rfl | rfl | rfl | rfl) <;> omega

/-- Digits of a fraction are read. -/
theorem Fraction.numeral {f : List Char} {k : Int} (h : Fraction Digits AllDigits f k) :
    Fraction Numeral NoColon f k := by
  obtain ⟨⟨n, hn, rfl⟩, hrest⟩ := h
  have few : n < 10 ^ 9 := Int.lt_of_lt_of_le hn.lt
    (pow_le_pow_right₀ (by decide) (List.length_take_le 9 f))
  have low := hn.nonneg
  have fits : Integer.Fits n := by
    rw [Integer.Fits, Integer.least, Integer.greatest]
    omega
  exact ⟨⟨n, .plain hn fits, rfl⟩, hrest.not_mem rfl⟩

/-- Documented texts whose parts make a span are read, as the sum of their parts. -/
theorem Form.readUnsigned {sum : Span} (h : Form Digits AllDigits body days c)
    (hsum : sum.nanos = (amounts days c).sum) : readUnsigned body = .ok sum := by
  have fits := h.fits hsum
  have form : Form Numeral NoColon body days c :=
    h.imp (fun t _ n hn ht => .plain ht (fits n hn)) fun _ _ _ _ hf => hf.numeral
  obtain ⟨hdays, hhours, hminutes, hseconds, hnanos⟩ := h.nonneg
  refine readUnsigned_eq_ok_iff.2 ⟨days, c, form, ?_⟩
  clear h form fits
  obtain ⟨hours, minutes, seconds, nanos⟩ := c
  obtain ⟨d, rfl⟩ := Int.eq_ofNat_of_zero_le hdays
  obtain ⟨hh, rfl⟩ := Int.eq_ofNat_of_zero_le hhours
  obtain ⟨m, rfl⟩ := Int.eq_ofNat_of_zero_le hminutes
  obtain ⟨s, rfl⟩ := Int.eq_ofNat_of_zero_le hseconds
  refine total?_of_sum hnanos ?_
  rw [hsum]
  simp only [amounts, List.sum_cons, List.sum_nil]
  omega

theorem Fraction.allDigits {f : List Char} {k : Int} (h : Fraction Digits AllDigits f k) :
    AllDigits f := by
  obtain ⟨⟨n, hn, -⟩, hrest⟩ := h
  intro x hx
  rw [← List.take_append_drop 9 f] at hx
  exact (List.mem_append.1 hx).elim (hn.digits x) (hrest x)

theorem dropWhile_colon {before after : List Char} (h : ':' ∉ before) :
    (before ++ ':' :: after).dropWhile (· != ':') = ':' :: after := by
  have passed : ∀ x ∈ before, (x != ':') = true := by
    intro x hx
    rw [bne_iff_ne]
    rintro rfl
    exact h hx
  rw [List.dropWhile_append_of_pos passed]
  rfl

/-- A plain text has one point behind its first colon, so that none stands behind it. -/
theorem Plain.no_point {before f : List Char} (h : Plain (before ++ '.' :: f))
    (colon : ':' ∈ before) : '.' ∉ f := by
  obtain ⟨start, more, rfl, first⟩ := List.eq_append_cons_of_mem colon
  have count := h.2
  rw [List.append_assoc, List.cons_append, dropWhile_colon first] at count
  rw [← List.count_eq_zero]
  simp only [List.count_cons, List.count_append] at count
  simp at count
  omega

/-- Seconds of digits have at most one point. -/
theorem Seconds.plain {t : List Char} {s k : Int} (h : Seconds Digits AllDigits t s k) :
    (∀ x ∈ t, x.isDigit = true ∨ x = '.' ∨ x = ':') ∧ t.count '.' ≤ 1 := by
  have pointless {ds : List Char} (hds : AllDigits ds) : ds.count '.' = 0 :=
    List.count_eq_zero.2 (hds.not_mem rfl)
  cases h with
  | none => simp
  | whole h =>
    refine ⟨List.forall_mem_cons.2 ⟨.inr (.inr rfl), fun x hx => .inl (h.digits x hx)⟩, ?_⟩
    simp [pointless h.digits]
  | parted h hf =>
    have digits := hf.allDigits
    refine ⟨List.forall_mem_cons.2 ⟨.inr (.inr rfl), List.forall_mem_append.2
      ⟨fun x hx => .inl (h.digits x hx), List.forall_mem_cons.2
        ⟨.inr (.inl rfl), fun x hx => .inl (digits x hx)⟩⟩⟩, ?_⟩
    simp [pointless h.digits, pointless digits]

/-- The texts of digits are plain. -/
theorem Form.plain (h : Form Digits AllDigits body days c) : Plain body := by
  obtain @⟨lead, hours, minutes, seconds, _, _, hlead, hhours, hminutes, hseconds, -⟩ := h
  obtain ⟨marks, points⟩ := hseconds.plain
  have front : ∀ x ∈ lead, x.isDigit = true ∨ x = '.' := by
    cases hlead with
    | none => exact fun x hx => nomatch hx
    | days h => exact List.forall_mem_append.2 ⟨fun x hx => .inl (h.digits x hx), by simp⟩
  have colon : ':' ∉ lead ++ hours := List.not_mem_append
    (fun h => by simpa using front _ h) (hhours.digits.not_mem rfl)
  refine ⟨List.forall_mem_append.2 ⟨List.forall_mem_append.2
    ⟨fun x hx => (front x hx).imp_right .inl, fun x hx => .inl (hhours.digits x hx)⟩,
    List.forall_mem_cons.2 ⟨.inr (.inr rfl), List.forall_mem_append.2
      ⟨fun x hx => .inl (hminutes.digits x hx), marks⟩⟩⟩, ?_⟩
  rw [dropWhile_colon colon]
  have pointless := List.count_eq_zero.2 (hminutes.digits.not_mem (c := '.') rfl)
  simpa [pointless] using points

/-- Plain texts that are read are documented. -/
theorem Form.documented (h : Form Numeral NoColon body days c) (plain : Plain body) :
    Form Digits AllDigits body days c := by
  refine h.imp (fun t sub n _ ht => ht.digits fun x hx => plain.1 x (sub hx)) ?_
  rintro before f rfl colon ⟨⟨n, hn, same⟩, hrest⟩
  have marks : ∀ x ∈ f, x.isDigit = true ∨ x = '.' ∨ x = ':' := fun x hx =>
    plain.1 x (by simp [hx])
  refine ⟨⟨n, hn.digits fun x hx => marks x (List.mem_of_mem_take hx), same⟩, fun x hx => ?_⟩
  -- behind the ninth digit the reader only refuses colons
  rcases marks x (List.mem_of_mem_drop hx) with digit | rfl | rfl
  · exact digit
  · exact absurd (List.mem_of_mem_drop hx) (plain.no_point colon)
  · exact absurd hx hrest

/-- A sign takes nothing out of the range of spans. -/
theorem inRange_of_sign {t : List Char} {n : Int} (h : InRange (signOf t * n)) : InRange n := by
  have sign : signOf t = -1 ∨ signOf t = 1 := by
    unfold signOf
    split
    · exact .inl rfl
    · exact .inr rfl
  unfold InRange at *
  rcases sign with sign | sign <;> rw [sign] at h <;> omega

/-- Documented texts are read. -/
theorem Documented.read {text : String} {span : Span}
    (h : Documented (Text.trim text.toList) span.nanos) : read text = .ok span := by
  obtain ⟨days, c, form, same⟩ := h
  have within : InRange (amounts days c).sum := inRange_of_sign (same ▸ span.inRange)
  exact read_eq_ok_iff_unsigned.2 ⟨⟨_, within⟩, form.readUnsigned rfl, same⟩

theorem ofText?_eq_some_iff_read {text : String} {span : Span} :
    ofText? text = some span ↔ read text = .ok span := by
  rw [ofText?]
  cases read text <;> simp

/-- A text gives a span exactly if, behind its sign, it is in the form of a span with numerals for
its parts, and these add up. The documented texts are those of them that are plain. -/
theorem ofText?_grammar (text : String) (span : Span) :
    (ofText? text = some span
        ↔ ∃ days c, Form Numeral NoColon (withoutSign (Text.trim text.toList)) days c
          ∧ AddsUp 0 (amounts days c)
          ∧ span.nanos = signOf (Text.trim text.toList) * (amounts days c).sum)
      ∧ (Documented (Text.trim text.toList) span.nanos
        ↔ ofText? text = some span ∧ Plain (withoutSign (Text.trim text.toList))) := by
  rw [ofText?_eq_some_iff_read]
  refine ⟨read_eq_ok_iff, ?_, ?_⟩
  · intro h
    have read := h.read
    obtain ⟨days, c, form, -⟩ := h
    exact ⟨read, form.plain⟩
  · rintro ⟨h, plain⟩
    obtain ⟨days, c, form, -, same⟩ := read_eq_ok_iff.1 h
    exact ⟨days, c, form.documented plain, same⟩

/-- Minutes with a sign of their own are read, and no documented text has them. -/
theorem ofText?_signed_minutes :
    (ofText? "00:-30:00").map Span.nanos = some (-30 * minute)
      ∧ ¬ Documented (Text.trim "00:-30:00".toList) (-30 * minute) := by
  refine ⟨rfl, ?_⟩
  rintro ⟨days, c, form, -⟩
  have digit := form.plain.1 '-' (by decide)
  simp at digit

end DataGrid.Span
