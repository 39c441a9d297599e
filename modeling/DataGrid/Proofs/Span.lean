import DataGrid.Proofs.Integer
import DataGrid.Span.Text

/-!
# Spans are read back

The written form of a span has no more than ticks of 100 nanoseconds. It is always read, as the span
without the rest of a tick (`Span.read_text`): as the span itself if that is a whole number of
ticks.
-/

namespace DataGrid.Span

open Integer (padded Fits)
open Text (splitFirst? splitAll splitFirst?_eq_some_iff splitFirst?_eq_none_iff splitAll_eq)

/-- A span without what is less than a tick of 100 nanoseconds. -/
def wholeTicks (a : Span) : Span where
  nanos := a.nanos.tdiv 100 * 100
  inRange := by
    have le := natAbs_tdiv_mul_le a.nanos 100
    have h := a.inRange
    unfold InRange at *
    omega

theorem wholeTicks_eq_iff {a : Span} : a.wholeTicks = a ↔ 100 ∣ a.nanos := by
  rw [wholeTicks, Span.mk.injEq]
  exact ⟨Dvd.intro_left _, Int.tdiv_mul_cancel⟩

/-! ### Parts -/

theorem byteSize_cons (c : Char) (t : List Char) :
    byteSize (c :: t) = c.utf8Size + byteSize t := by
  rw [byteSize, String.ofList_cons, String.utf8ByteSize_append, String.utf8ByteSize_singleton]
  rfl

theorem length_le_byteSize (t : List Char) : t.length ≤ byteSize t := by
  induction t with
  | nil => exact Nat.zero_le _
  | cons c t ih =>
    have one := c.utf8Size_pos
    rw [byteSize_cons, List.length_cons]
    omega

/-- A digit is one byte. -/
theorem byteSize_of_allDigits {ds : List Char} (hds : AllDigits ds) : byteSize ds = ds.length := by
  induction ds with
  | nil => rfl
  | cons c ds ih =>
    obtain ⟨hc, hds⟩ := List.forall_mem_cons.1 hds
    have one : c.utf8Size = 1 := Char.utf8Size_eq_one_iff.2 <| by
      have code := toNat_of_isDigit hc
      rw [UInt32.le_iff_toNat_le]
      exact Nat.le_trans code.2 (by decide)
    rw [byteSize_cons, one, ih hds, List.length_cons, Nat.add_comm]

theorem part_of_padded {text : List Char} {width n : Nat} (h : text = padded width n)
    (fits : Fits n) : part text = .ok (n : Int) := by
  rw [part, h, Integer.ofText?_padded fits]
  exact congrArg Except.ok (Integer.toInt_ofInt_of_fits fits)

theorem fits_of_le {n bound : Nat} (hn : n ≤ bound) (hbound : bound ≤ 10 ^ 18) : Fits n := by
  rw [Fits, Integer.least, Integer.greatest]
  omega

/-- The days in front of the hours. -/
def daysText (days : Nat) : List Char :=
  if 0 < days then Nat.toDigits 10 days ++ ['.'] else []

/-- The ticks behind the seconds. -/
def ticksText (ticks : Nat) : List Char := if 0 < ticks then '.' :: padded 7 ticks else []

/-- The written form of a span without its sign. -/
def written (days hours minutes seconds ticks : Nat) : List Char :=
  (daysText days ++ padded 2 hours)
    ++ ':' :: (padded 2 minutes ++ ':' :: (padded 2 seconds ++ ticksText ticks))

theorem mem_daysText {days : Nat} {c : Char} (h : c ∈ daysText days) :
    c.isDigit = true ∨ c = '.' := by
  rw [daysText] at h
  split at h
  · rcases List.mem_append.1 h with h | h
    · exact .inl (Integer.isDigit_of_mem_toDigits h)
    · exact .inr (List.mem_singleton.1 h)
  · cases h

theorem mem_ticksText {ticks : Nat} {c : Char} (h : c ∈ ticksText ticks) :
    c.isDigit = true ∨ c = '.' := by
  rw [ticksText] at h
  split at h
  · rcases List.mem_cons.1 h with h | h
    · exact .inr h
    · exact .inl (Integer.allDigits_padded 7 ticks c h)
  · cases h

/-- The seconds are read with the nanoseconds of the ticks. -/
theorem secondsPart_written {seconds ticks : Nat} (hs : seconds ≤ 59) (ht : ticks < 10 ^ 7) :
    secondsPart (padded 2 seconds ++ ticksText ticks)
      = .ok ((seconds : Int), (ticks : Int) * 100) := by
  have point : '.' ∉ padded 2 seconds := (Integer.allDigits_padded 2 seconds).not_mem rfl
  have whole : part (padded 2 seconds) = .ok (seconds : Int) :=
    part_of_padded rfl (fits_of_le hs (by decide))
  rw [ticksText]
  split
  next =>
    have length := Integer.length_padded (by decide : 0 < 7) ht
    have digits : (padded 7 ticks).take 9 = padded 7 ticks := List.take_of_length_le (by omega)
    have size : byteSize (padded 7 ticks) = 7 := by
      rw [byteSize_of_allDigits (Integer.allDigits_padded 7 ticks), length]
    have unit : scale (padded 7 ticks) = .ok 100 := by
      rw [scale, size]
      rfl
    have count : part (padded 7 ticks) = .ok (ticks : Int) :=
      part_of_padded rfl (fits_of_le (Nat.le_of_lt ht) (by decide))
    rw [secondsPart, splitFirst?_eq_some_iff.2 ⟨rfl, point⟩]
    simp only [digits, unit, count, whole]
    rfl
  next none =>
    obtain rfl : ticks = 0 := by omega
    rw [List.append_nil, secondsPart, splitFirst?_eq_none_iff.2 point, whole]
    rfl

/-- The clock is read part by part. -/
theorem clock_written {hours minutes seconds ticks : Nat} (hh : hours ≤ 23) (hm : minutes ≤ 59)
    (hs : seconds ≤ 59) (ht : ticks < 10 ^ 7) :
    clock (padded 2 hours :: splitAll ':'
        (padded 2 minutes ++ ':' :: (padded 2 seconds ++ ticksText ticks)))
      = .ok ⟨hours, minutes, seconds, ticks * 100⟩ := by
  have colon (n : Nat) : ':' ∉ padded 2 n := (Integer.allDigits_padded 2 n).not_mem rfl
  have last : ':' ∉ padded 2 seconds ++ ticksText ticks := by
    rw [List.mem_append, not_or]
    exact ⟨colon seconds, fun h => by simpa using mem_ticksText h⟩
  have parts : splitAll ':' (padded 2 minutes ++ ':' :: (padded 2 seconds ++ ticksText ticks))
      = [padded 2 minutes, padded 2 seconds ++ ticksText ticks] := by
    rw [splitAll_eq, splitFirst?_eq_some_iff.2 ⟨rfl, colon minutes⟩]
    simp only
    rw [splitAll_eq, splitFirst?_eq_none_iff.2 last]
  have bounds : (hours : Int) ≤ 23 ∧ (minutes : Int) ≤ 59 ∧ (seconds : Int) ≤ 59 := by omega
  rw [parts, clock]
  simp only [part_of_padded rfl (fits_of_le hh (by decide)),
    part_of_padded rfl (fits_of_le hm (by decide)), secondsPart_written hs ht]
  exact if_pos ⟨Nat.le_refl 1, bounds⟩

/-! ### The sum of the parts -/

theorem units_eq : day = 86400000000000 ∧ hour = 3600000000000 ∧ minute = 60000000000
    ∧ second = 1000000000 :=
  ⟨rfl, rfl, rfl, rfl⟩

/-- What is between nothing and a span is in range. -/
theorem exists_ofNanos? (total : Span) {n : Int} (low : 0 ≤ n) (high : n ≤ total.nanos) :
    ∃ a, ofNanos? n = some a ∧ a.nanos = n := by
  have below := total.inRange.2
  have pos : (0 : Int) ≤ longest := by decide
  exact ⟨⟨n, by omega, by omega⟩, dif_pos _, rfl⟩

/-- One more part is added without leaving the range of the whole sum. -/
theorem exists_add? (sum total : Span) {n : Int} (sumLow : 0 ≤ sum.nanos) (low : 0 ≤ n)
    (high : sum.nanos + n ≤ total.nanos) :
    ∃ part, ofNanos? n = some part ∧ ∃ next, sum.add? part = some next
      ∧ next.nanos = sum.nanos + n := by
  obtain ⟨part, hpart, rfl⟩ := exists_ofNanos? total low (by omega)
  exact ⟨part, hpart, exists_ofNanos? total (by omega) high⟩

/-- Parts that are not negative are added up to their sum. -/
theorem total?_of_sum {days hours minutes seconds : Nat} {nanos : Int} {total : Span}
    (hnanos : 0 ≤ nanos)
    (sum : days * day + hours * hour + minutes * minute + seconds * second + nanos = total.nanos) :
    total? days ⟨hours, minutes, seconds, nanos⟩ = some total := by
  have nonneg (n : Nat) (unit : Int) (h : 0 ≤ unit) : 0 ≤ n * unit :=
    Int.mul_nonneg (Int.natCast_nonneg n) h
  have hday := nonneg days day (by decide)
  have hhour := nonneg hours hour (by decide)
  have hminute := nonneg minutes minute (by decide)
  have hsecond := nonneg seconds second (by decide)
  obtain ⟨sum₁, first, eq₁⟩ := exists_ofNanos? total hday (by omega)
  obtain ⟨part₂, hpart₂, sum₂, hsum₂, eq₂⟩ :=
    exists_add? sum₁ total (by omega) hhour (by omega)
  obtain ⟨part₃, hpart₃, sum₃, hsum₃, eq₃⟩ :=
    exists_add? sum₂ total (by omega) hminute (by omega)
  obtain ⟨part₄, hpart₄, sum₄, hsum₄, eq₄⟩ :=
    exists_add? sum₃ total (by omega) hsecond (by omega)
  obtain ⟨part₅, hpart₅, sum₅, hsum₅, eq₅⟩ :=
    exists_add? sum₄ total (by omega) hnanos (by omega)
  have whole : sum₅ = total := by
    rw [Span.mk.injEq]
    omega
  refine Option.bind_eq_some_iff.2 ⟨sum₁, first, ?_⟩
  refine Option.bind_eq_some_iff.2 ⟨part₂, hpart₂, Option.bind_eq_some_iff.2 ⟨sum₂, hsum₂, ?_⟩⟩
  refine Option.bind_eq_some_iff.2 ⟨part₃, hpart₃, Option.bind_eq_some_iff.2 ⟨sum₃, hsum₃, ?_⟩⟩
  refine Option.bind_eq_some_iff.2 ⟨part₄, hpart₄, Option.bind_eq_some_iff.2 ⟨sum₄, hsum₄, ?_⟩⟩
  exact Option.bind_eq_some_iff.2 ⟨part₅, hpart₅, whole ▸ hsum₅⟩

/-- What a text without its sign gives, part by part. -/
theorem readUnsigned_of_parts {body head tail hours : List Char} {days : Int} {c : Clock}
    {total : Span} (colon : splitFirst? ':' body = some (head, tail))
    (lead : days = 0 ∧ splitFirst? '.' head = none ∧ hours = head
      ∨ ∃ daysText, splitFirst? '.' head = some (daysText, hours) ∧ part daysText = .ok days)
    (read : clock (hours :: splitAll ':' tail) = .ok c) (sum : total? days c = some total) :
    readUnsigned body = .ok total := by
  rw [readUnsigned, colon]
  rcases lead with ⟨rfl, point, rfl⟩ | ⟨daysText, point, daysPart⟩
  · simp only [point]
    simp only [bind, Except.bind, read, sum]
  · simp only [point, daysPart]
    simp only [bind, Except.bind, read, sum]

/-- The days are read from what stands in front of the first colon. -/
theorem readUnsigned_written {days hours minutes seconds ticks : Nat} {total : Span}
    (hh : hours ≤ 23) (hm : minutes ≤ 59) (hs : seconds ≤ 59) (ht : ticks < 10 ^ 7)
    (sum : days * day + hours * hour + minutes * minute + seconds * second + ticks * 100
      = total.nanos) :
    readUnsigned (written days hours minutes seconds ticks) = .ok total := by
  have read := clock_written hh hm hs ht
  have added : total? days ⟨hours, minutes, seconds, ticks * 100⟩ = some total :=
    total?_of_sum (by omega) sum
  have few : Fits days := by
    have below := total.inRange.2
    obtain ⟨hday, hhour, hminute, hsecond⟩ := units_eq
    rw [hday, hhour, hminute, hsecond] at sum
    rw [longest, milli] at below
    rw [Fits, Integer.least]
    omega
  have digits : AllDigits (Nat.toDigits 10 days) := fun c hc => Integer.isDigit_of_mem_toDigits hc
  have hoursDigits := Integer.allDigits_padded 2 hours
  by_cases some : 0 < days
  · have colon : ':' ∉ daysText days ++ padded 2 hours := by
      rw [List.mem_append, not_or]
      exact ⟨fun h => by simpa using mem_daysText h, hoursDigits.not_mem rfl⟩
    have point : splitFirst? '.' (daysText days ++ padded 2 hours)
        = .some (Nat.toDigits 10 days, padded 2 hours) :=
      splitFirst?_eq_some_iff.2 ⟨by simp [daysText, some], digits.not_mem rfl⟩
    have daysPart : part (Nat.toDigits 10 days) = .ok (days : Int) :=
      part_of_padded (show _ = padded 0 days by rw [padded, Nat.zero_sub]; rfl) few
    exact readUnsigned_of_parts (splitFirst?_eq_some_iff.2 ⟨rfl, colon⟩)
      (.inr ⟨_, point, daysPart⟩) read added
  · obtain rfl : days = 0 := by omega
    have colon : ':' ∉ padded 2 hours := hoursDigits.not_mem rfl
    have point : splitFirst? '.' (padded 2 hours) = none :=
      splitFirst?_eq_none_iff.2 (hoursDigits.not_mem rfl)
    exact readUnsigned_of_parts (splitFirst?_eq_some_iff.2 ⟨rfl, colon⟩)
      (.inl ⟨rfl, point, rfl⟩) read added

/-! ### Whole texts -/

/-- The written form of a span without its sign. -/
def unsignedText (a : Span) : List Char :=
  let nanos := a.nanos.natAbs
  let seconds := nanos / second.toNat
  written (seconds / 86400) (seconds % 86400 / 3600) (seconds % 3600 / 60) (seconds % 60)
    (nanos % second.toNat / 100)

theorem text_eq (a : Span) :
    a.text = (if a.nanos < 0 then ['-'] else []) ++ a.unsignedText := by
  simp [text, unsignedText, written, daysText, ticksText]

theorem natAbs_wholeTicks (a : Span) :
    a.wholeTicks.nanos.natAbs = a.nanos.natAbs / 100 * 100 := by
  rw [wholeTicks, Int.natAbs_mul, Int.natAbs_tdiv]
  rfl

/-- The parts of a span are those of its whole ticks. -/
theorem readUnsigned_unsignedText {a total : Span}
    (whole : total.nanos = (a.nanos.natAbs / 100 * 100 : Nat)) :
    readUnsigned a.unsignedText = .ok total := by
  have nanosPerSecond : second.toNat = 1000000000 := rfl
  rw [unsignedText, nanosPerSecond]
  refine readUnsigned_written (by omega) (by omega) (by omega) (by omega) ?_
  obtain ⟨hday, hhour, hminute, hsecond⟩ := units_eq
  rw [hday, hhour, hminute, hsecond, whole]
  omega

theorem mem_unsignedText {a : Span} {c : Char} (h : c ∈ a.unsignedText) :
    c.isDigit = true ∨ c = '.' ∨ c = ':' := by
  have digit {width n : Nat} (h : c ∈ padded width n) : c.isDigit = true :=
    Integer.allDigits_padded width n c h
  simp only [unsignedText, written, List.mem_append, List.mem_cons] at h
  rcases h with (h | h) | h | h | h | h | h
  · exact (mem_daysText h).imp_right .inl
  · exact .inl (digit h)
  · exact .inr (.inr h)
  · exact .inl (digit h)
  · exact .inr (.inr h)
  · exact .inl (digit h)
  · exact (mem_ticksText h).imp_right .inl

/-- The marks of the text are no blanks. -/
theorem trim_text (a : Span) : Text.trim a.text = a.text := by
  refine Text.trim_eq_self_of_forall fun c hc => ?_
  rw [text_eq, List.mem_append] at hc
  rcases hc with hc | hc
  · split at hc
    · rw [List.mem_singleton.1 hc]
      rfl
    · cases hc
  · rcases mem_unsignedText hc with digit | rfl | rfl
    · exact isBlank_of_isDigit digit
    · rfl
    · rfl

/-- What is written of a span is read as its whole ticks. -/
theorem read_text (a : Span) : read (String.ofList a.text) = .ok a.wholeTicks := by
  have size := a.natAbs_wholeTicks
  rw [read, String.toList_ofList, trim_text, text_eq]
  by_cases negative : a.nanos < 0
  · have below : a.wholeTicks.nanos ≤ 0 := by
      have share := Int.tdiv_nonneg (a := -a.nanos) (b := 100) (by omega) (by decide)
      rw [Int.neg_tdiv] at share
      show a.nanos.tdiv 100 * 100 ≤ 0
      omega
    have unsigned : readUnsigned a.unsignedText = .ok a.wholeTicks.neg :=
      readUnsigned_unsignedText (show -a.wholeTicks.nanos = _ by omega)
    have back : a.wholeTicks.neg.neg = a.wholeTicks := by
      rw [neg, neg, Span.mk.injEq, Int.neg_neg]
    rw [if_pos negative]
    simp only [List.cons_append, List.nil_append, unsigned]
    exact congrArg Except.ok back
  · have above : 0 ≤ a.wholeTicks.nanos :=
      Int.mul_nonneg (Int.tdiv_nonneg (Int.not_lt.1 negative) (by decide)) (by decide)
    rw [if_neg negative, List.nil_append]
    split
    next signed =>
      have sign := mem_unsignedText (signed ▸ List.mem_cons_self)
      simp at sign
    next => exact readUnsigned_unsignedText (by omega)

/-- A span is read back without the rest of a tick, and so as it was if and only if it is a whole
number of ticks. -/
theorem ofText?_text_wholeTicks (a : Span) :
    ofText? (String.ofList a.text) = some a.wholeTicks
      ∧ (ofText? (String.ofList a.text) = some a ↔ 100 ∣ a.nanos) := by
  have read : ofText? (String.ofList a.text) = some a.wholeTicks := by
    rw [ofText?, read_text]
  refine ⟨read, ?_⟩
  rw [read, Option.some_inj, wholeTicks_eq_iff]

end DataGrid.Span
