import DataGrid.DateTime.Parser
import DataGrid.DateTime.Text
import DataGrid.Proofs.Integer
import Mathlib.Algebra.Ring.Nat
import Mathlib.Data.List.Basic

/-!
# Moments are read back

The written form of a moment has no zone, and the third pattern of the spellings reads it. What is
read is the moment again, years with a sign and leap seconds included, unless nanoseconds fill a
second that is not the last one of a minute: then it is the moment in the next second, which is
written in the same way (`DateTime.ofText?_text`, `DateTime.settle_eq_self_iff`).
-/

namespace DataGrid

/-! ### Digits -/

/-- A text that does not go on with a digit. -/
def Stops (text : List Char) : Prop := ∀ c ∈ text.head?, c.isDigit = false

/-- Digits are taken up to the first character that is none. -/
theorem takeWhile_isDigit {ds rest : List Char} (hds : AllDigits ds) (stops : Stops rest) :
    (ds ++ rest).takeWhile Char.isDigit = ds := by
  rw [List.takeWhile_append_of_pos hds]
  cases rest with
  | nil => simp
  | cons c rest =>
    have hc : c.isDigit = false := stops c rfl
    rw [List.takeWhile_cons_of_neg (by simp [hc]), List.append_nil]

namespace DateTime

open Integer (padded)

/-- Digits are read up to the greatest number of them, or up to what is no digit. -/
theorem digits?_eq_some {least most : Nat} {ds rest : List Char} (hds : AllDigits ds)
    (hleast : least ≤ ds.length) (hmost : ds.length ≤ most)
    (stops : ds.length = most ∨ Stops rest) :
    digits? least most (ds ++ rest) = some (Nat.ofDigitChars 10 ds 0, rest) := by
  have stops' : Stops (rest.take (most - ds.length)) := by
    rcases stops with full | stops
    · rw [full, Nat.sub_self, List.take_zero]
      exact fun c hc => nomatch hc
    · intro c hc
      cases rest with
      | nil => simp at hc
      | cons x rest =>
        cases hk : most - ds.length with
        | zero => simp [hk] at hc
        | succ k =>
          rw [hk, List.take_succ_cons] at hc
          exact stops c hc
  have run : ((ds ++ rest).take most).takeWhile Char.isDigit = ds := by
    rw [List.take_append, List.take_of_length_le hmost, takeWhile_isDigit hds stops']
  rw [digits?, run, if_neg (by omega), List.drop_left]

/-- A number of as many digits as are read. -/
theorem digits?_padded {least width n : Nat} (hleast : least ≤ width) (hwidth : 0 < width)
    (hn : n < 10 ^ width) (rest : List Char) :
    digits? least width (padded width n ++ rest) = some (n, rest) := by
  have length := Integer.length_padded hwidth hn
  rw [digits?_eq_some (Integer.allDigits_padded width n) (by omega) (by omega) (.inl length),
    Integer.ofDigitChars_padded]

/-- There is nothing to trim in front of digits. -/
theorem trimStart_digits {ds rest : List Char} (hds : AllDigits ds) (some : ds ≠ []) :
    Text.trimStart (ds ++ rest) = ds ++ rest := by
  cases ds with
  | nil => exact absurd rfl some
  | cons c ds => exact Text.trimStart_eq_self (isBlank_of_isDigit (hds c List.mem_cons_self))

/-! ### Items -/

/-- A number of two digits is read back, whatever follows. -/
theorem number_padded {α : Type} (enter : Nat → α) {n : Nat} (hn : n < 100) (rest : List Char) :
    ((digits? 1 2 (Text.trimStart (padded 2 n ++ rest))).map fun (n, rest) => (enter n, rest))
      = some (enter n, rest) := by
  rw [trimStart_digits (Integer.allDigits_padded 2 n) (Integer.padded_ne_nil 2 n),
    digits?_padded (by decide) (by decide) hn]
  rfl

/-- How a number of two digits is entered into the fields, if the item is one. -/
def Item.enter? : Item → Option (Fields → Nat → Fields)
  | .month => some fun f n => { f with month := n }
  | .day => some fun f n => { f with day := n }
  | .hour => some fun f n => { f with hour := n }
  | .minute => some fun f n => { f with minute := n }
  | .second => some Fields.withSecond
  | .year | .fraction | .mark _ | .gap => none

/-- The items of two digits read back what was written for them. -/
theorem readItem?_padded {item : Item} {enter : Fields → Nat → Fields} {n : Nat}
    (h : item.enter? = some enter) (hn : n < 100) (f : Fields) (rest : List Char) :
    readItem? item f (padded 2 n ++ rest) = some (enter f n, rest) := by
  have read := number_padded (enter f) hn rest
  cases item <;> cases h <;> exact read

/-- One item after another is read. -/
theorem readItems?_step {item : Item} {items : List Item} {f g : Fields} {text rest : List Char}
    (h : readItem? item f text = some (g, rest)) :
    readItems? (item :: items) f text = readItems? items g rest := by
  rw [readItems?, h]

theorem readItem?_mark (c : Char) (f : Fields) (rest : List Char) :
    readItem? (.mark c) f (c :: rest) = some (f, rest) := if_pos rfl

theorem stops_dash (rest : List Char) : Stops ('-' :: rest) := by
  intro c hc
  cases hc
  rfl

/-- A year that starts with a digit is read of up to four digits. -/
theorem year?_of_isDigit {c : Char} (hc : c.isDigit = true) (text : List Char) :
    year? (c :: text) = (digits? 1 4 (c :: text)).map fun (n, rest) => ((n : Int), rest) := by
  simp only [year?]
  split
  next h => cases h; cases hc
  next h => cases h; cases hc
  next => rfl

/-- A year is read with its sign, and up to the dash after it. -/
theorem year?_yearText (year : Int) (rest : List Char) :
    year? (Text.trimStart (yearText year ++ '-' :: rest)) = some (year, '-' :: rest) := by
  have signed : ∀ n : Nat, digits? 1 (padded 4 n ++ '-' :: rest).length (padded 4 n ++ '-' :: rest)
      = some (n, '-' :: rest) := by
    intro n
    have some := List.length_pos_of_ne_nil (Integer.padded_ne_nil 4 n)
    rw [digits?_eq_some (Integer.allDigits_padded 4 n) some
      (by rw [List.length_append]; omega) (.inr (stops_dash rest)), Integer.ofDigitChars_padded]
  rw [yearText]
  split
  -- four digits without a sign
  next short =>
    have hn : year.natAbs < 10 ^ 4 := by omega
    have read := digits?_padded (by decide : 1 ≤ 4) (by decide) hn ('-' :: rest)
    rw [trimStart_digits (Integer.allDigits_padded 4 _) (Integer.padded_ne_nil 4 _)]
    cases hp : padded 4 year.natAbs with
    | nil => exact absurd hp (Integer.padded_ne_nil 4 _)
    | cons c ds =>
      have hc := Integer.allDigits_padded 4 year.natAbs c (hp ▸ List.mem_cons_self)
      rw [hp] at read
      rw [List.cons_append, year?_of_isDigit hc, ← List.cons_append, read]
      simp only [Option.map_some]
      rw [Int.natAbs_of_nonneg short.1]
  -- a sign, and as many digits as it takes
  next long =>
    by_cases negative : year < 0
    · rw [if_pos negative, List.cons_append, Text.trimStart_eq_self (by decide), year?, signed]
      simp only [Option.map_some]
      congr
      omega
    · rw [if_neg negative, List.cons_append, Text.trimStart_eq_self (by decide), year?, signed]
      simp only [Option.map_some]
      congr
      omega

/-- The digits of a fraction are read as nanoseconds. -/
theorem nanos?_padded {kept n : Nat} (hkept : 0 < kept) (few : kept ≤ 9) (hn : n < 10 ^ kept) :
    nanos? (padded kept n) = some (n * 10 ^ (9 - kept), []) := by
  have length := Integer.length_padded hkept hn
  have run : (padded kept n).takeWhile Char.isDigit = padded kept n := by
    have stops : Stops [] := fun c hc => nomatch hc
    have run := takeWhile_isDigit (Integer.allDigits_padded kept n) stops
    rwa [List.append_nil] at run
  have some : (padded kept n).isEmpty = false := by
    cases h : padded kept n with
    | nil => exact absurd h (Integer.padded_ne_nil kept n)
    | cons c ds => rfl
  have all : (padded kept n).drop kept = [] := List.drop_of_length_le (by omega)
  simp only [nanos?, run, some, Bool.false_eq_true, if_false]
  rw [List.take_of_length_le (by omega), Integer.ofDigitChars_padded, length, all]
  rfl

/-- A fraction is nothing, or a point and digits that are read as its nanoseconds. -/
theorem fractionText_cases {nano : Nat} (h : nano < nanosPerSecond) :
    nano = 0 ∧ fractionText nano = []
      ∨ ∃ kept n, fractionText nano = '.' :: padded kept n
        ∧ nanos? (padded kept n) = some (nano, []) := by
  simp only [nanosPerSecond] at h
  have read (kept : Nat) (hkept : 0 < kept) (few : kept ≤ 9) (whole : nano % 10 ^ (9 - kept) = 0) :
      nanos? (padded kept (nano / 10 ^ (9 - kept))) = some (nano, []) := by
    have size : 10 ^ kept * 10 ^ (9 - kept) = 10 ^ 9 := by rw [← Nat.pow_add]; congr; omega
    rw [nanos?_padded hkept few, Nat.div_mul_cancel (Nat.dvd_of_mod_eq_zero whole)]
    exact Nat.div_lt_of_lt_mul (by rw [Nat.mul_comm, size]; exact h)
  rw [fractionText]
  split
  next zero => exact .inl ⟨zero, rfl⟩
  next =>
    right
    split
    next whole => exact ⟨_, _, rfl, read 3 (by decide) (by decide) whole⟩
    next =>
      split
      next whole => exact ⟨_, _, rfl, read 6 (by decide) (by decide) whole⟩
      next => exact ⟨_, _, rfl, by simpa using read 9 (by decide) (by decide) (Nat.mod_one _)⟩

/-- A fraction is read back to its nanoseconds, which are added. -/
theorem readItem?_fraction {nano : Nat} (h : nano < nanosPerSecond) (f : Fields) :
    readItem? .fraction f (fractionText nano) = some ({ f with nano := f.nano + nano }, []) := by
  rcases fractionText_cases h with ⟨rfl, htext⟩ | ⟨kept, n, htext, read⟩
  · rw [htext]
    rfl
  · rw [htext]
    simp only [readItem?, read]
    rfl

/-! ### Seconds that are filled -/

/-- Nanoseconds fill the second in the last second of a minute only. -/
def Fields.Settled (f : Fields) : Prop := f.nano < nanosPerSecond ∨ f.second = 59

instance (f : Fields) : Decidable f.Settled :=
  inferInstanceAs (Decidable (f.nano < nanosPerSecond ∨ f.second = 59))

/-- The fields as they are read back: nanoseconds that fill the second are carried over to the next
one of the minute. -/
def Fields.settle (f : Fields) : Fields :=
  if f.Settled then f else { f with second := f.second + 1, nano := f.nano - nanosPerSecond }

/-- Exactly the settled fields stay as they are. -/
theorem Fields.settle_eq_self_iff {f : Fields} : f.settle = f ↔ f.Settled := by
  rw [settle]
  split
  next settled => exact iff_of_true rfl settled
  next filled => exact iff_of_false (fun same => Nat.succ_ne_self _ (congrArg second same)) filled

/-- Nanoseconds that fill a second before the last one are those of the next second. -/
theorem Fields.settle_of_filled {f : Fields} (h : ¬ f.Settled) :
    f.settle = { f with second := f.second + 1, nano := f.nano - nanosPerSecond } := if_neg h

/-- What is left of the nanoseconds does not fill the next second. -/
theorem Fields.Valid.settled_settle {f : Fields} (h : f.Valid) : f.settle.Settled := by
  by_cases settled : f.Settled
  · rwa [Fields.settle_eq_self_iff.2 settled]
  · obtain ⟨-, -, -, -, -, -, -, -, -, nano⟩ := h
    rw [Fields.settle_of_filled settled]
    refine .inl ?_
    show f.nano - nanosPerSecond < nanosPerSecond
    omega

/-- Settling the fields of a moment gives those of a moment. -/
theorem Fields.Valid.settle {f : Fields} (h : f.Valid) : f.settle.Valid := by
  by_cases settled : f.Settled
  · rwa [Fields.settle_eq_self_iff.2 settled]
  · obtain ⟨least, greatest, month, months, day, days, hour, minute, second, nano⟩ := h
    rw [Fields.settle_of_filled settled]
    have last : f.second ≠ 59 := (not_or.1 settled).2
    refine ⟨least, greatest, month, months, day, days, hour, minute, ?_, ?_⟩
    · show f.second + 1 < 60
      omega
    · show f.nano - nanosPerSecond < 2 * nanosPerSecond
      omega

/-- The moment as it is read back. -/
def settle (d : DateTime) : DateTime := ⟨d.fields.settle, d.valid.settle⟩

/-- A moment is read back as it is exactly if its fields are settled. -/
theorem settle_eq_self_iff {d : DateTime} : d.settle = d ↔ d.fields.Settled := by
  rw [← Fields.settle_eq_self_iff]
  constructor
  · exact congrArg fields
  · intro same
    cases d
    simp only [settle, same]

/-- A moment is written as the one that is read back. -/
theorem text_settle (d : DateTime) : d.settle.text = d.text := by
  by_cases settled : d.fields.Settled
  · rw [settle_eq_self_iff.2 settled]
  · have nano : nanosPerSecond ≤ d.fields.nano := Nat.not_lt.1 (not_or.1 settled).1
    have fields : d.settle.fields = _ := Fields.settle_of_filled settled
    have shown : shownSecond d.settle.fields = shownSecond d.fields := by
      rw [fields, shownSecond, shownSecond, Nat.div_eq_sub_div (by decide) nano]
      show d.fields.second + 1 + _ = _
      rw [Nat.add_assoc, Nat.add_comm 1]
    have left : d.settle.fields.nano % nanosPerSecond = d.fields.nano % nanosPerSecond := by
      rw [fields, ← Nat.mod_eq_sub_mod nano]
    rw [text, text, shown, left, fields]

/-! ### Whole texts -/

/-- What is written after the year. -/
def afterYear (f : Fields) : List Char :=
  padded 2 f.month ++ '-' :: (padded 2 f.day ++ 'T' :: (padded 2 f.hour ++ ':' ::
    (padded 2 f.minute ++ ':' :: (padded 2 (shownSecond f)
      ++ fractionText (f.nano % nanosPerSecond)))))

/-- The text of a moment starts with its year. -/
theorem text_eq (d : DateTime) : d.text = yearText d.fields.year ++ '-' :: afterYear d.fields := by
  simp [text, afterYear]

/-- A pattern with slashes does not read it. -/
theorem readItems?_slash (items : List Item) (f g : Fields) (year : Int) :
    readItems? (.year :: .mark '/' :: items) f (yearText year ++ '-' :: afterYear g) = none := by
  simp only [readItems?, readItem?, year?_yearText]
  rfl

/-- The second is restored, with the nanoseconds of a leap second. -/
theorem withSecond_shownSecond {f : Fields} (h : f.Valid) (g : Fields) (hg : g.nano = 0) :
    ∃ nano, g.withSecond (shownSecond f) = { g with second := f.settle.second, nano := nano }
      ∧ nano + f.nano % nanosPerSecond = f.settle.nano := by
  obtain ⟨-, -, -, -, -, -, -, -, second, nano⟩ := h
  by_cases fits : f.nano < nanosPerSecond
  · rw [Fields.settle_eq_self_iff.2 (.inl fits)]
    refine ⟨0, ?_, by rw [Nat.zero_add, Nat.mod_eq_of_lt fits]⟩
    rw [shownSecond, Nat.div_eq_of_lt fits, Nat.add_zero, Fields.withSecond, if_neg (by omega),
      ← hg]
  · have carry : f.nano / nanosPerSecond = 1 := by
      simp only [nanosPerSecond] at fits nano ⊢
      omega
    have left : f.nano % nanosPerSecond = f.nano - nanosPerSecond := by
      rw [Nat.mod_eq_sub_mod (Nat.not_lt.1 fits), Nat.mod_eq_of_lt (by omega)]
    rw [shownSecond, carry, left]
    by_cases last : f.second = 59
    -- a leap second is written as second 60
    · rw [Fields.settle_eq_self_iff.2 (.inr last)]
      refine ⟨nanosPerSecond, ?_, Nat.add_sub_cancel' (Nat.not_lt.1 fits)⟩
      rw [last, Fields.withSecond, if_pos rfl, hg, Nat.zero_add]
    · have filled : ¬ f.Settled := not_or.2 ⟨fits, last⟩
      rw [Fields.settle_of_filled filled]
      refine ⟨0, ?_, Nat.zero_add _⟩
      rw [Fields.withSecond, if_neg (by omega), ← hg]

/-- The second that is shown has two digits, though it may be the sixtieth. -/
theorem shownSecond_lt {f : Fields} (h : f.Valid) : shownSecond f < 100 := by
  obtain ⟨-, -, -, -, -, -, -, -, second, nano⟩ := h
  simp only [nanosPerSecond, shownSecond] at nano ⊢
  omega

/-- The fields of a moment have no more digits than they are written with. -/
theorem two_digits {f : Fields} (h : f.Valid) :
    f.month < 100 ∧ f.day < 100 ∧ f.hour < 100 ∧ f.minute < 100 := by
  obtain ⟨-, -, -, month, -, day, hour, minute, -, -⟩ := h
  have days : daysInMonth f.year f.month ≤ 31 := by
    rw [daysInMonth]
    split
    · split <;> omega
    · split <;> omega
  omega

/-- Settling touches the second and its nanoseconds only. -/
theorem Fields.settle_eq (f : Fields) :
    f.settle = { f with second := f.settle.second, nano := f.settle.nano } := by
  rw [settle]
  split <;> rfl

/-- The pattern with dashes reads the written form. -/
theorem ofPattern?_text (d : DateTime) :
    ofPattern? (datePattern '-' ++ .mark 'T' :: longTime) d.text = some d.settle := by
  obtain ⟨month, day, hour, minute⟩ := two_digits d.valid
  obtain ⟨nano, restored, total⟩ := withSecond_shownSecond d.valid
    ⟨d.fields.year, d.fields.month, d.fields.day, d.fields.hour, d.fields.minute, 0, 0⟩ rfl
  have fraction : d.fields.nano % nanosPerSecond < nanosPerSecond := Nat.mod_lt _ (by decide)
  have read : readItems? (datePattern '-' ++ .mark 'T' :: longTime) blankFields d.text
      = some (d.settle.fields, []) := by
    have year : readItem? .year blankFields d.text
        = some ({ blankFields with year := d.fields.year }, '-' :: afterYear d.fields) := by
      rw [readItem?, text_eq, year?_yearText]
      rfl
    refine (readItems?_step year).trans ?_
    refine (readItems?_step (readItem?_mark '-' _ _)).trans ?_
    refine (readItems?_step (readItem?_padded rfl month _ _)).trans ?_
    refine (readItems?_step (readItem?_mark '-' _ _)).trans ?_
    refine (readItems?_step (readItem?_padded rfl day _ _)).trans ?_
    refine (readItems?_step (readItem?_mark 'T' _ _)).trans ?_
    refine (readItems?_step (readItem?_padded rfl hour _ _)).trans ?_
    refine (readItems?_step (readItem?_mark ':' _ _)).trans ?_
    refine (readItems?_step (readItem?_padded rfl minute _ _)).trans ?_
    refine (readItems?_step (readItem?_mark ':' _ _)).trans ?_
    refine (readItems?_step (readItem?_padded rfl (shownSecond_lt d.valid) _ _)).trans ?_
    rw [readItems?_step (readItem?_fraction fraction _)]
    simp only [blankFields, restored, total, readItems?]
    exact congrArg (fun f => some (f, [])) d.fields.settle_eq.symm
  rw [ofPattern?, read]
  exact ofFields?_fields d.settle

/-- The zoned form does not read a sign. -/
theorem digits?_sign {c : Char} (hc : c.isDigit = false) (text : List Char) :
    digits? 4 4 (c :: text) = none := by
  rw [digits?, List.take_succ_cons, List.takeWhile_cons_of_neg (by simp [hc])]
  rfl

/-- Reading goes on with what a step has read. -/
theorem bind_of_some {α β : Type} {step : Option α} {a : α} (h : step = some a)
    (next : α → Option β) : step >>= next = next a := by
  rw [h]
  rfl

theorem oneOf?_mark (c : Char) (marks rest : List Char) :
    oneOf? (c :: marks) (c :: rest) = some rest := by
  rw [oneOf?, List.contains_cons, beq_self_eq_true, Bool.true_or, if_pos rfl]

/-- Without a zone there is no zoned form. -/
theorem ofZoned?_text (d : DateTime) : ofZoned? d.text = none := by
  obtain ⟨month, day, hour, minute⟩ := two_digits d.valid
  have fraction : d.fields.nano % nanosPerSecond < nanosPerSecond := Nat.mod_lt _ (by decide)
  have two {n : Nat} (hn : n < 100) (rest : List Char) := digits?_padded
    (by decide : 2 ≤ 2) (by decide) hn rest
  rw [text_eq, yearText]
  split
  next short =>
    have year := digits?_padded (by decide : 4 ≤ 4) (by decide)
      (show d.fields.year.natAbs < 10 ^ 4 by omega) ('-' :: afterYear d.fields)
    refine (bind_of_some year _).trans ?_
    refine (bind_of_some (oneOf?_mark '-' [] _) _).trans ?_
    refine (bind_of_some (two month _) _).trans ?_
    refine (bind_of_some (oneOf?_mark '-' [] _) _).trans ?_
    refine (bind_of_some (two day _) _).trans ?_
    refine (bind_of_some (oneOf?_mark 'T' ['t', ' '] _) _).trans ?_
    refine (bind_of_some (two hour _) _).trans ?_
    refine (bind_of_some (oneOf?_mark ':' [] _) _).trans ?_
    refine (bind_of_some (two minute _) _).trans ?_
    refine (bind_of_some (oneOf?_mark ':' [] _) _).trans ?_
    refine (bind_of_some (two (shownSecond_lt d.valid) _) _).trans ?_
    -- the text ends here or after the fraction, where a zone would stand
    rcases fractionText_cases fraction with ⟨-, htext⟩ | ⟨kept, n, htext, read⟩
    · rw [htext]
      rfl
    · rw [htext]
      exact bind_of_some read _
  next long =>
    have sign : (if d.fields.year < 0 then '-' else '+').isDigit = false := by split <;> rfl
    rw [List.cons_append, ofZoned?, digits?_sign sign]
    rfl

/-- There is no blank in a padded number. -/
theorem isBlank_of_mem_padded {width n : Nat} {c : Char} (h : c ∈ padded width n) :
    Text.isBlank c = false :=
  isBlank_of_isDigit (Integer.allDigits_padded width n c h)

/-- There is none in a year. -/
theorem isBlank_of_mem_yearText {year : Int} {c : Char} (h : c ∈ yearText year) :
    Text.isBlank c = false := by
  rw [yearText] at h
  split at h
  · exact isBlank_of_mem_padded h
  · rcases List.mem_cons.1 h with rfl | h
    · split <;> rfl
    · exact isBlank_of_mem_padded h

/-- There is none in a fraction. -/
theorem isBlank_of_mem_fractionText {nano : Nat} (hnano : nano < nanosPerSecond) {c : Char}
    (h : c ∈ fractionText nano) : Text.isBlank c = false := by
  rcases fractionText_cases hnano with ⟨-, htext⟩ | ⟨kept, n, htext, -⟩
  · rw [htext] at h
    cases h
  · rw [htext] at h
    rcases List.mem_cons.1 h with rfl | h
    · rfl
    · exact isBlank_of_mem_padded h

/-- The marks of the text are no blanks. -/
theorem trim_text (d : DateTime) : Text.trim d.text = d.text := by
  refine Text.trim_eq_self_of_forall fun c hc => ?_
  have fraction : d.fields.nano % nanosPerSecond < nanosPerSecond := Nat.mod_lt _ (by decide)
  simp only [text_eq, afterYear, List.mem_append, List.mem_cons] at hc
  rcases hc with h | rfl | h | rfl | h | rfl | h | rfl | h | rfl | h | h
  · exact isBlank_of_mem_yearText h
  all_goals first
    | rfl
    | exact isBlank_of_mem_padded h
    | exact isBlank_of_mem_fractionText fraction h

/-- What is written of a moment is read as the moment, with nanoseconds that fill a second carried
over unless they are those of a leap second. -/
theorem ofText?_text (d : DateTime) : ofText? (String.ofList d.text) = some d.settle := by
  have slash (items : List Item) :
      ofPattern? (.year :: .mark '/' :: items) d.text = none := by
    rw [ofPattern?, text_eq, readItems?_slash]
  rw [ofText?, String.toList_ofList, trim_text, ofZoned?_text]
  have first : patterns.findSome? (fun pattern => ofPattern? pattern d.text) = some d.settle := by
    simp only [patterns, List.findSome?_cons, ofPattern?_text]
    simp only [datePattern, List.cons_append, slash]
  exact first

end DateTime

end DataGrid
