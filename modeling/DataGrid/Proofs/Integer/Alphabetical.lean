import DataGrid.Proofs.Integer
import Mathlib.Data.String.Basic

/-!
# Decimal texts in the order of texts

`Integer.decimal` is the decimal text of an integer. The order of these texts is not that of the
integers: "10" stands before "2", and "-1" before "-2".

* Among the texts of integers that fit into a word, that of -1 is the first and that of 10 ^ 18 - 1
  the last (`decimal_neg_one_le`, `decimal_le`). The last one of a negative integer is that of
  1 - 10 ^ 18 (`decimal_le_of_neg`), and the first one of an integer from 2 on is that of 10
  (`ten_le_decimal`).
* So there are three places at which a text stands among them as a number would
  (`Integer.Splits`): before all of them, behind those of the negative integers and before that of
  10, and behind all of them. Elsewhere it stands behind a greater integer and before a lesser one
  (`Integer.monotone_iff_splits`).
-/

namespace DataGrid.Integer

/-- The decimal text of an integer. -/
def decimal (n : Int) : String := String.ofList (text n)

theorem toList_decimal (n : Int) : (decimal n).toList = text n := String.toList_ofList

/-! ### Texts of digits -/

theorem zero_le_of_isDigit {c : Char} (h : c.isDigit = true) : '0' ≤ c :=
  (toNat_of_isDigit h).1

theorem le_nine_of_isDigit {c : Char} (h : c.isDigit = true) : c ≤ '9' :=
  (toNat_of_isDigit h).2

/-- The digits of a natural that is not zero do not start with a zero. -/
theorem exists_toDigits_eq_cons {n : Nat} (h : 0 < n) :
    ∃ c rest, Nat.toDigits 10 n = c :: rest ∧ '1' ≤ c := by
  induction n using Nat.strongRecOn with
  | ind n ih =>
    by_cases small : n < 10
    · refine ⟨n.digitChar, [], Nat.toDigits_of_lt_base small, ?_⟩
      have code := Nat.toNat_digitChar_of_lt_ten small
      show '1'.toNat ≤ n.digitChar.toNat
      have one : '1'.toNat = 49 := rfl
      omega
    · obtain ⟨c, rest, digits, hc⟩ := ih (n / 10) (by omega) (by omega)
      exact ⟨c, rest ++ [(n % 10).digitChar],
        by rw [Nat.toDigits_of_base_le (by decide) (by omega), digits, List.cons_append], hc⟩

/-- The order of texts is that of their first characters, and of what is behind them if these are
the same. -/
theorem cons_le_cons {c d : Char} {cs ds : List Char} (h : c < d ∨ c = d ∧ cs ≤ ds) :
    c :: cs ≤ d :: ds := by
  rcases h with less | ⟨rfl, le⟩
  · exact le_of_lt (List.cons_lt_cons_iff.2 (.inl less))
  · exact List.cons_le_cons c le

/-- As many digits as there are nines stand before them unless they are nines. -/
theorem append_lt_nines {ds : List Char} (hds : AllDigits ds)
    (some : ds ≠ List.replicate ds.length '9') (more : List Char) :
    ds ++ more < List.replicate ds.length '9' := by
  induction ds with
  | nil => exact absurd rfl some
  | cons c ds ih =>
    obtain ⟨hc, hds⟩ := List.forall_mem_cons.1 hds
    rw [List.length_cons, List.replicate_succ] at some ⊢
    rw [List.cons_append, List.cons_lt_cons_iff]
    rcases lt_or_eq_of_le (le_nine_of_isDigit hc) with less | nine
    · exact .inl less
    · exact .inr ⟨nine, ih hds fun same => some (by rw [nine, ← same])⟩

/-- No more digits than there are nines stand before them or are some of them. -/
theorem le_nines {ds : List Char} (hds : AllDigits ds) {k : Nat} (short : ds.length ≤ k) :
    ds ≤ List.replicate k '9' := by
  induction ds generalizing k with
  | nil => exact not_lt.1 (List.not_lt_nil _)
  | cons c ds ih =>
    obtain ⟨hc, hds⟩ := List.forall_mem_cons.1 hds
    obtain ⟨k, rfl⟩ : ∃ k', k = k' + 1 := ⟨k - 1, by rw [List.length_cons] at short; omega⟩
    exact cons_le_cons ((lt_or_eq_of_le (le_nine_of_isDigit hc)).imp_right fun nine =>
      ⟨nine, ih hds (Nat.le_of_succ_le_succ short)⟩)

/-- The natural whose digits are the last among those of the magnitudes of words. -/
def lastNatural : Nat := 999999999999999999

theorem toDigits_lastNatural : Nat.toDigits 10 lastNatural = List.replicate 18 '9' := by
  decide +kernel

theorem allDigits_toDigits (n : Nat) : AllDigits (Nat.toDigits 10 n) :=
  fun _ hc => isDigit_of_mem_toDigits hc

theorem toDigits_le_last {n : Nat} (h : n ≤ 2 ^ 63) :
    Nat.toDigits 10 n ≤ Nat.toDigits 10 lastNatural := by
  rw [toDigits_lastNatural]
  by_cases short : n < 10 ^ 18
  · exact le_nines (allDigits_toDigits n)
      ((Nat.length_toDigits_le_iff (by decide) (by decide)).2 short)
  -- with 19 digits, those in front of the last are not all nines
  · have most := (Nat.length_toDigits_le_iff (n := n / 10) (b := 10) (k := 18) (by decide)
      (by decide)).2 (by omega)
    have least := mt (Nat.length_toDigits_le_iff (n := n / 10) (b := 10) (k := 17) (by decide)
      (by decide)).1 (by omega)
    have front : (Nat.toDigits 10 (n / 10)).length = 18 := by omega
    have notNines : Nat.toDigits 10 (n / 10) ≠ List.replicate 18 '9' := by
      intro nines
      have value := Nat.ofDigitChars_ten_toDigits (n := n / 10)
      rw [nines, ← toDigits_lastNatural, Nat.ofDigitChars_ten_toDigits, lastNatural] at value
      omega
    rw [Nat.toDigits_of_base_le (by decide) (by omega), ← front]
    exact le_of_lt (append_lt_nines (allDigits_toDigits _) (by rwa [front]) _)

/-- From two on, the digits of ten are the first. -/
theorem ten_le_toDigits {n : Nat} (h : 2 ≤ n) : ['1', '0'] ≤ Nat.toDigits 10 n := by
  by_cases small : n < 10
  · rw [Nat.toDigits_of_lt_base small]
    have code := Nat.toNat_digitChar_of_lt_ten small
    have one : '1'.toNat = 49 := rfl
    refine cons_le_cons (.inl ?_)
    show '1'.toNat < n.digitChar.toNat
    omega
  · obtain ⟨c, rest, digits, hc⟩ := exists_toDigits_eq_cons (n := n / 10) (by omega)
    rw [Nat.toDigits_of_base_le (by decide) (by omega), digits, List.cons_append]
    refine cons_le_cons ((lt_or_eq_of_le hc).imp_right fun one => ⟨one, ?_⟩)
    obtain ⟨d, more, second⟩ := List.exists_cons_of_ne_nil
      (List.append_ne_nil_of_right_ne_nil rest (List.cons_ne_nil (n % 10).digitChar []))
    have digit : d.isDigit = true := by
      refine allDigits_toDigits n d ?_
      rw [Nat.toDigits_of_base_le (by decide) (by omega), digits, List.cons_append, second]
      exact List.mem_cons_of_mem c List.mem_cons_self
    rw [second]
    exact cons_le_cons ((lt_or_eq_of_le (zero_le_of_isDigit digit)).imp_right fun zero =>
      ⟨zero, not_lt.1 (List.not_lt_nil _)⟩)

/-! ### Texts of integers -/

variable {n : Int}

theorem text_of_neg (h : n < 0) : text n = '-' :: Nat.toDigits 10 n.natAbs := if_pos h

theorem text_of_nonneg (h : 0 ≤ n) : text n = Nat.toDigits 10 n.natAbs := if_neg (by omega)

/-- A sign stands before the digits. -/
theorem sign_lt_toDigits (m : Nat) (rest : List Char) : '-' :: rest < Nat.toDigits 10 m := by
  obtain ⟨c, more, digits⟩ := List.exists_cons_of_ne_nil (Nat.toDigits_ne_nil (b := 10) (n := m))
  have digit := allDigits_toDigits m c (digits ▸ List.mem_cons_self)
  rw [digits, List.cons_lt_cons_iff]
  exact .inl (lt_of_lt_of_le (by decide) (zero_le_of_isDigit digit))

theorem decimal_neg_one_le (n : Int) : decimal (-1) ≤ decimal n := by
  rw [String.le_iff_toList_le, toList_decimal, toList_decimal, text_of_neg (by decide)]
  by_cases negative : n < 0
  · rw [text_of_neg negative]
    obtain ⟨c, rest, digits, hc⟩ := exists_toDigits_eq_cons (n := n.natAbs) (by omega)
    rw [digits]
    exact List.cons_le_cons _ (cons_le_cons ((lt_or_eq_of_le hc).imp_right fun one =>
      ⟨one, not_lt.1 (List.not_lt_nil _)⟩))
  · rw [text_of_nonneg (by omega)]
    exact le_of_lt (sign_lt_toDigits _ _)

/-- The magnitude of a word. -/
theorem Fits.natAbs_le (h : Fits n) : n.natAbs ≤ 2 ^ 63 := by
  obtain ⟨low, high⟩ := h
  rw [least] at low
  rw [greatest] at high
  omega

theorem decimal_le_of_neg (h : Fits n) (negative : n < 0) :
    decimal n ≤ decimal (-lastNatural) := by
  rw [String.le_iff_toList_le, toList_decimal, toList_decimal, text_of_neg negative,
    text_of_neg (by decide)]
  exact List.cons_le_cons _ (toDigits_le_last h.natAbs_le)

theorem decimal_le (h : Fits n) : decimal n ≤ decimal lastNatural := by
  rw [String.le_iff_toList_le, toList_decimal, toList_decimal,
    text_of_nonneg (n := lastNatural) (by decide)]
  by_cases negative : n < 0
  · rw [text_of_neg negative]
    exact le_of_lt (sign_lt_toDigits _ _)
  · rw [text_of_nonneg (by omega)]
    exact toDigits_le_last h.natAbs_le

theorem ten_le_decimal (h : 2 ≤ n) : decimal 10 ≤ decimal n := by
  rw [String.le_iff_toList_le, toList_decimal, toList_decimal, text_of_nonneg (by decide),
    text_of_nonneg (by omega)]
  exact ten_le_toDigits (by omega)

/-! ### Where a text stands -/

/-- The outcomes of a comparison in their order. -/
def place : Ordering → Int
  | .lt => -1
  | .eq => 0
  | .gt => 1

/-- A second element is placed no lower than a first one if it is behind all that the first one is
behind. -/
theorem place_compare_le_iff {α : Type} [LinearOrder α] {a b t : α} :
    place (compare a t) ≤ place (compare b t) ↔ (t ≤ a → t ≤ b) ∧ (t < a → t < b) := by
  cases ha : compare a t <;> cases hb : compare b t
  all_goals
    simp only [compare_lt_iff_lt, compare_eq_iff_eq, compare_gt_iff_gt] at ha hb
    simp only [place]
    grind

/-- Where a text stands among the texts of integers as a number would. -/
def Splits (t : String) : Prop :=
  t < decimal (-1) ∨ decimal (-lastNatural) < t ∧ t < decimal 10 ∨ decimal lastNatural < t

instance (t : String) : Decidable (Splits t) := inferInstanceAs (Decidable (_ ∨ _))

/-- A text at one of the three places stands behind lesser integers and before greater ones. -/
theorem place_le_of_splits {t : String} (h : Splits t) {m n : Int} (hm : Fits m) (hn : Fits n)
    (le : m ≤ n) : place (compare (decimal m) t) ≤ place (compare (decimal n) t) := by
  rw [place_compare_le_iff]
  rcases h with first | ⟨behind, before⟩ | last
  · have := lt_of_lt_of_le first (decimal_neg_one_le n)
    exact ⟨fun _ => this.le, fun _ => this⟩
  · by_cases great : 2 ≤ n
    · have := lt_of_lt_of_le before (ten_le_decimal great)
      exact ⟨fun _ => this.le, fun _ => this⟩
    by_cases negative : m < 0
    · have := lt_of_le_of_lt (decimal_le_of_neg hm negative) behind
      exact ⟨fun h => absurd h this.not_ge, fun h => absurd h this.not_gt⟩
    -- the texts of zero and one are in the order of the numbers
    · have le : decimal m ≤ decimal n := by
        obtain ⟨rfl | rfl, rfl | rfl⟩ : (m = 0 ∨ m = 1) ∧ (n = 0 ∨ n = 1) := by omega
        · exact le_rfl
        · decide
        · exact absurd le (by decide)
        · exact le_rfl
      exact ⟨fun h => h.trans le, fun h => h.trans_le le⟩
  · have := lt_of_le_of_lt (decimal_le hm) last
    exact ⟨fun h => absurd h this.not_ge, fun h => absurd h this.not_gt⟩

/-- A text stands behind lesser integers and before greater ones exactly if it is at one of three
places. -/
theorem monotone_iff_splits {t : String} :
    (∀ i j : Int64, i ≤ j →
      place (compare (decimal i.toInt) t) ≤ place (compare (decimal j.toInt) t)) ↔ Splits t := by
  refine ⟨fun mono => ?_, fun h i j le =>
    place_le_of_splits h (fits_toInt i) (fits_toInt j) (Int64.le_iff_toInt_le.1 le)⟩
  have mono (m n : Int) (hm : Fits m) (hn : Fits n) (le : m ≤ n) :
      (t ≤ decimal m → t ≤ decimal n) ∧ (t < decimal m → t < decimal n) := by
    have ordered := mono (Int64.ofInt m) (Int64.ofInt n) (by
      rwa [Int64.le_iff_toInt_le, toInt_ofInt_of_fits hm, toInt_ofInt_of_fits hn])
    rwa [toInt_ofInt_of_fits hm, toInt_ofInt_of_fits hn, place_compare_le_iff] at ordered
  by_cases first : t < decimal (-1)
  · exact .inl first
  by_cases last : decimal lastNatural < t
  · exact .inr (.inr last)
  refine .inr (.inl ⟨?_, ?_⟩)
  · by_contra behind
    obtain ⟨le, lt⟩ := mono (-lastNatural) (-1) (by decide) (by decide) (by decide)
    obtain rfl := le_antisymm (le (not_lt.1 behind)) (not_lt.1 first)
    exact first (lt (by decide +kernel))
  · have long := (mono lastNatural (lastNatural + 1) (by decide) (by decide) (by decide)).1
      (not_lt.1 last)
    have short := (mono 2 10 (by decide) (by decide) (by decide)).2
    exact short (lt_of_le_of_lt long (by decide +kernel))

end DataGrid.Integer
