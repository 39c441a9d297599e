import DataGrid.Text.LowerCase
import Mathlib.Data.List.Infix

/-!
# Lower case of parts of a text

Every character but the capital sigma has one lower-case form. That of a capital sigma depends on
what stands around it (`endsWord`), so the lower-case form of a part is not always a part of the
lower-case form of the whole.

* `lowerBetween` is the lower-case form of a part between the parts around it
  (`lowerBetween_append`, `lowerAfter_append`).
* In two places a part becomes the same exactly if its capital sigmas end words in the one where
  they do in the other (`lowerBetween_eq_iff`).
* A part keeps the ends of its words (`KeepsEnds`) if they are those of the part alone. Then its
  lower-case form is a part of that of the whole (`lowerAfter_around`), and a beginning or an ending
  has to keep them for that (`lowerAfter_prefix_iff`, `lowerAfter_suffix_iff`).
-/

namespace DataGrid.Text

variable {text before after before' after' : List Char}

theorem toList_lowerCase (text : String) :
    (lowerCase text).toList = lowerAfter [] text.toList := by
  rw [lowerCase, String.toList_ofList]

/-- Whether a word ends between the text before, read backwards, and the text after. -/
def endsWord (before after : List Char) : Bool := meetsCased before && !meetsCased after

/-- The lower-case form of a part between the text before it, read backwards, and the text after
it. -/
def lowerBetween (before after : List Char) : List Char → List Char
  | [] => []
  | c :: rest => lowerWithin before c (rest ++ after) ++ lowerBetween (c :: before) after rest

theorem lowerBetween_nil (before text : List Char) :
    lowerBetween before [] text = lowerAfter before text := by
  induction text generalizing before with
  | nil => rfl
  | cons c rest ih => rw [lowerBetween, lowerAfter, List.append_nil, ih]

theorem lowerBetween_append (before after left right : List Char) :
    lowerBetween before after (left ++ right)
      = lowerBetween before (right ++ after) left
        ++ lowerBetween (left.reverse ++ before) after right := by
  induction left generalizing before with
  | nil => rfl
  | cons c rest ih =>
    rw [List.cons_append, lowerBetween, lowerBetween, ih, List.append_assoc, List.append_assoc,
      List.reverse_cons, List.append_assoc, List.singleton_append]

theorem lowerAfter_append (before left right : List Char) :
    lowerAfter before (left ++ right)
      = lowerBetween before right left ++ lowerAfter (left.reverse ++ before) right := by
  rw [← lowerBetween_nil, lowerBetween_append, lowerBetween_nil, List.append_nil]

/-! ### One part in two places -/

theorem length_lowerWithin (before after before' after' : List Char) (c : Char) :
    (lowerWithin before c after).length = (lowerWithin before' c after').length := by
  rw [lowerWithin, lowerWithin]
  split <;> rfl

/-- Only a capital sigma shows where it stands. -/
theorem lowerWithin_eq_iff {c : Char} :
    lowerWithin before c after = lowerWithin before' c after'
      ↔ (c = capitalSigma → endsWord before after = endsWord before' after') := by
  rw [lowerWithin, lowerWithin, ← endsWord, ← endsWord]
  by_cases sigma : c = capitalSigma
  · rw [if_pos sigma, if_pos sigma, forall_prop_of_true sigma]
    cases endsWord before after <;> cases endsWord before' after' <;> decide
  · rw [if_neg sigma, if_neg sigma]
    exact ⟨fun _ h => absurd h sigma, fun _ => rfl⟩

theorem length_lowerBetween (before after before' after' text : List Char) :
    (lowerBetween before after text).length = (lowerBetween before' after' text).length := by
  induction text generalizing before before' with
  | nil => rfl
  | cons c rest ih =>
    rw [lowerBetween, lowerBetween, List.length_append, List.length_append,
      length_lowerWithin before _ before' (rest ++ after'), ih]

/-- The capital sigmas of a part end words in one place where they do in another. -/
def SameEnds (before after before' after' text : List Char) : Prop :=
  ∀ left right, text = left ++ capitalSigma :: right →
    endsWord (left.reverse ++ before) (right ++ after)
      = endsWord (left.reverse ++ before') (right ++ after')

theorem sameEnds_cons {c : Char} {rest : List Char} :
    SameEnds before after before' after' (c :: rest)
      ↔ (c = capitalSigma → endsWord before (rest ++ after) = endsWord before' (rest ++ after'))
        ∧ SameEnds (c :: before) after (c :: before') after' rest := by
  constructor
  · intro h
    refine ⟨?_, ?_⟩
    · rintro rfl
      exact h [] rest rfl
    · rintro left right rfl
      have here := h (c :: left) right rfl
      simpa only [List.reverse_cons, List.append_assoc, List.singleton_append] using here
  · rintro ⟨here, rest⟩ left right split
    cases left with
    | nil =>
      obtain ⟨rfl, rfl⟩ := List.cons.inj split
      exact here rfl
    | cons d left =>
      obtain ⟨rfl, inRest⟩ := List.cons.inj split
      simpa only [List.reverse_cons, List.append_assoc, List.singleton_append]
        using rest left right inRest

theorem lowerBetween_eq_iff :
    lowerBetween before after text = lowerBetween before' after' text
      ↔ SameEnds before after before' after' text := by
  induction text generalizing before before' with
  | nil =>
    refine ⟨fun _ left right split => ?_, fun _ => rfl⟩
    cases left <;> cases split
  | cons c rest ih =>
    rw [lowerBetween, lowerBetween, sameEnds_cons, ← lowerWithin_eq_iff, ← ih]
    constructor
    · exact fun h => List.append_inj h (length_lowerWithin _ _ _ _ c)
    · rintro ⟨here, rest⟩
      rw [here, rest]

/-- The capital sigmas of a part end words in the whole where they do in the part alone. -/
def KeepsEnds (before text after : List Char) : Prop := SameEnds before.reverse after [] [] text

theorem keepsEnds_of_not_mem (none : capitalSigma ∉ text) : KeepsEnds before text after := by
  rintro left right rfl
  exact absurd (List.mem_append_right left List.mem_cons_self) none

theorem keepsEnds_iff : KeepsEnds before text after
    ↔ lowerAfter [] text = lowerBetween before.reverse after text := by
  rw [KeepsEnds, ← lowerBetween_eq_iff, lowerBetween_nil, eq_comm]

theorem length_lowerAfter (before after : List Char) :
    (lowerAfter [] text).length = (lowerBetween before after text).length := by
  rw [← lowerBetween_nil, length_lowerBetween]

/-! ### Beginnings and endings -/

theorem lowerAfter_prefix_iff :
    lowerAfter [] text <+: lowerAfter [] (text ++ after) ↔ KeepsEnds [] text after := by
  rw [keepsEnds_iff, lowerAfter_append, List.reverse_nil]
  constructor
  · rintro ⟨rest, h⟩
    exact List.append_inj_left h (length_lowerAfter [] after)
  · intro same
    rw [same]
    exact List.prefix_append _ _

theorem lowerAfter_suffix_iff :
    lowerAfter [] text <:+ lowerAfter [] (before ++ text) ↔ KeepsEnds before text [] := by
  rw [keepsEnds_iff, lowerAfter_append, List.append_nil, lowerBetween_nil]
  constructor
  · rintro ⟨rest, h⟩
    refine List.append_inj_right' h ?_
    rw [← lowerBetween_nil before.reverse]
    exact length_lowerAfter before.reverse []
  · intro same
    rw [same]
    exact List.suffix_append _ _

/-- A part that keeps the ends of its words is put in lower case as if it stood alone. -/
theorem lowerAfter_around (h : KeepsEnds before text after) :
    lowerAfter [] (before ++ text ++ after)
      = lowerBetween [] (text ++ after) before ++ lowerAfter [] text
        ++ lowerAfter (text.reverse ++ before.reverse) after := by
  rw [keepsEnds_iff] at h
  rw [List.append_assoc, lowerAfter_append, lowerAfter_append, List.append_nil, ← h,
    List.append_assoc]

end DataGrid.Text
