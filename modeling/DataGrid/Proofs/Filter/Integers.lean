import DataGrid.Proofs.Filter.Operators
import DataGrid.Proofs.Integer.Alphabetical

/-!
# Integers against texts

A member that may hold anything is compared with a literal by the kind of value that is read. An
integer is compared with a text as with the number that the text writes. A text that writes none is
compared with the decimal text of the integer, and these are not in the order of the integers.

So the outcome does not fall as the integer grows exactly if the literal writes an integer, or
stands at one of three places among the decimal texts (`Integer.Splits`). For such a literal the
integers that ">" and ">=" accept are all from one on, and those that "<" and "<=" accept all up to
one (`Filter.integers_monotone`).
-/

namespace DataGrid

open Integer (decimal place Splits)

namespace Text

/-- A digit and a sign have no letter case. -/
theorem lowerWithin_of_digit {c : Char} (h : c.isDigit = true ∨ c = '-')
    (before after : List Char) :
    lowerWithin before c after = [c] := by
  have code : c.toNat < 58 := by
    rcases h with digit | rfl
    · have := (toNat_of_isDigit digit).2
      omega
    · decide
  have small {d : Char} (big : 58 ≤ d.toNat) : c ≠ d := fun same => by
    rw [same] at code
    omega
  have kept : c.toLower = c := by
    refine dif_neg ?_
    rintro ⟨capital, -⟩
    have : 'A'.toNat ≤ c.toNat := UInt32.le_iff_toNat_le.1 capital
    have letter : 'A'.toNat = 65 := rfl
    omega
  rw [lowerWithin, if_neg (small (by decide)), if_neg (small (by decide)), lowerChar,
    if_pos (by omega), kept]

/-- The text of an integer has no letter case. -/
theorem lowerCase_decimal (n : Int) : lowerCase (decimal n) = decimal n := by
  have plain : ∀ c ∈ Integer.text n, c.isDigit = true ∨ c = '-' := by
    intro c hc
    rw [Integer.text] at hc
    split at hc
    · exact (List.mem_cons.1 hc).symm.imp_left (Integer.allDigits_toDigits _ c)
    · exact .inl (Integer.allDigits_toDigits _ c hc)
  have kept : ∀ (text before : List Char), (∀ c ∈ text, c.isDigit = true ∨ c = '-') →
      lowerAfter before text = text := by
    intro text
    induction text with
    | nil => exact fun _ _ => rfl
    | cons c rest ih =>
      intro before plain
      obtain ⟨hc, hrest⟩ := List.forall_mem_cons.1 plain
      rw [lowerAfter, lowerWithin_of_digit hc, ih _ hrest, List.singleton_append]
  rw [lowerCase, Integer.toList_decimal, kept _ _ plain, decimal]

end Text

section Untyped

variable {s : Settings} {literal : String}

/-- An integer and a text are compared by the number that the text writes, if it writes one. -/
theorem convertedOrder?_int_string (i : Int64) (literal : String) :
    convertedOrder? (.int i) (.string literal)
      = (Integer.ofText? (Value.trimmed literal)).map fun n => compare i.toInt n.toInt := by
  have reads : FieldType.int64.convert? (.string literal)
      = (Integer.ofText? (Value.trimmed literal)).map .int := rfl
  simp only [convertedOrder?, Value.compare?, knownType?, FieldType.convert, Value.isNull, reads,
    Bool.false_eq_true, if_false]
  cases Integer.ofText? (Value.trimmed literal) <;> rfl

/-- Against the text of a number, integers are placed as against the number. -/
theorem untypedOrder_of_number (foldCase : Bool) {n : Int64}
    (h : Integer.ofText? (Value.trimmed literal) = some n) (i : Int64) :
    untypedOrder foldCase (.int i) (.string literal) = compare i.toInt n.toInt := by
  have converted := convertedOrder?_int_string i literal
  rw [h, Option.map_some] at converted
  simp only [untypedOrder, converted]

/-- Against another text, their decimal texts are placed in the order of texts. -/
theorem untypedOrder_of_text (h : Integer.ofText? (Value.trimmed literal) = none) (i : Int64) :
    untypedOrder s.stringToLower (.int i) (.string literal)
      = compare (decimal i.toInt) (Clause.fold s literal) := by
  have converted := convertedOrder?_int_string i literal
  rw [h, Option.map_none] at converted
  have written : (Value.int i).text = decimal i.toInt := rfl
  simp only [untypedOrder, converted, written, textOrder, Text.lowerCase_decimal, Clause.fold]
  split <;> rfl

/-- The literal has a place among the integers: it writes one, or its text stands where a number
would. -/
def PlacesIntegers (s : Settings) (literal : String) : Prop :=
  (Integer.ofText? (Value.trimmed literal)).isSome = true ∨ Splits (Clause.fold s literal)

instance (s : Settings) (literal : String) : Decidable (PlacesIntegers s literal) :=
  inferInstanceAs (Decidable (_ ∨ _))

/-- No integer is placed behind a greater one against the literal. -/
def MonotoneAgainst (foldCase : Bool) (literal : String) : Prop :=
  ∀ i j : Int64, i ≤ j → place (untypedOrder foldCase (.int i) (.string literal))
    ≤ place (untypedOrder foldCase (.int j) (.string literal))

theorem monotone_iff_placesIntegers :
    MonotoneAgainst s.stringToLower literal ↔ PlacesIntegers s literal := by
  cases h : Integer.ofText? (Value.trimmed literal) with
  | some n =>
    refine ⟨fun _ => .inl (by rw [h]; rfl), fun _ i j le => ?_⟩
    rw [untypedOrder_of_number _ h, untypedOrder_of_number _ h, Integer.place_compare_le_iff]
    have le := Int64.le_iff_toInt_le.1 le
    exact ⟨fun above => above.trans le, fun above => above.trans_le le⟩
  | none =>
    simp only [MonotoneAgainst, PlacesIntegers, untypedOrder_of_text h, h, Option.isSome_none,
      Bool.false_eq_true, false_or]
    exact Integer.monotone_iff_splits

/-- The operators that accept greater values accept more of an outcome that is placed higher, and
those that accept lesser values accept less. -/
theorem Comparator.admits_of_place_le {o o' : Ordering} (le : place o ≤ place o')
    (op : Comparator) :
    (op = .gt ∨ op = .ge → op.admits o = true → op.admits o' = true)
      ∧ (op = .lt ∨ op = .le → op.admits o' = true → op.admits o = true) := by
  cases o <;> cases o' <;> cases op <;> first | decide | exact absurd le (by decide)

end Untyped

namespace Filter

variable {s : Settings} {shape : Shape} {path : String} {a : Accessor}

/-- A comparison decides every record by the place of its value and the literal. -/
theorem compile_untyped (ha : Accessor.ofPath shape s.guardNulls path = .ok a)
    (ht : a.type.isDynamic = true) (op : Comparator) (literal : Value) :
    ∃ p, compile s shape (.binary path (some op.token) literal) = .ok p
      ∧ ∀ record v, a.read record = .ok v →
        p.evaluate record = .ok (op.admits (untypedOrder s.stringToLower v literal)) := by
  have compiled : Clause.compile s a op.token literal = _ := Clause.compile_of_dynamic ht op
  refine ⟨_, (compile_binary ha op).trans compiled, fun record v hread => ?_⟩
  obtain ⟨p, hp, decides⟩ : ∃ p, Clause.compile s a op.token literal = .ok p ∧ _ :=
    Clause.compile_dynamic ht hread op
  cases compiled.symm.trans hp
  exact decides

/-- Integers at a member that may hold anything are compared with a text in their order exactly if
the text has a place among them. The integers that a comparison accepts are then all from one of
them on, or all up to one. -/
theorem integers_monotone (ha : Accessor.ofPath shape s.guardNulls path = .ok a)
    (ht : a.type.isDynamic = true) (literal : String) :
    (MonotoneAgainst s.stringToLower literal ↔ PlacesIntegers s literal)
      ∧ ∀ op : Comparator, ∃ p,
        compile s shape (.binary path (some op.token) (.string literal)) = .ok p
          ∧ (PlacesIntegers s literal → ∀ lesser greater i j, a.read lesser = .ok (.int i) →
            a.read greater = .ok (.int j) → i ≤ j →
              (op = .gt ∨ op = .ge → p.evaluate lesser = .ok true →
                p.evaluate greater = .ok true)
              ∧ (op = .lt ∨ op = .le → p.evaluate greater = .ok true →
                p.evaluate lesser = .ok true)) := by
  refine ⟨monotone_iff_placesIntegers, fun op => ?_⟩
  obtain ⟨p, hp, decides⟩ := compile_untyped ha ht op (.string literal)
  refine ⟨p, hp, fun placed lesser greater i j hi hj le => ?_⟩
  rw [decides _ _ hi, decides _ _ hj, Except.ok.injEq, Except.ok.injEq]
  exact Comparator.admits_of_place_le (monotone_iff_placesIntegers.2 placed i j le) op

/-- The text "0x1F" writes no number, and stands behind that of zero and before that of one. -/
theorem integers_monotone_mark :
    let shape := Shape.mk "Reading" [Field.plain "mark" .dynamic]
    let a : Accessor := {
      path := "mark"
      steps := [.member "mark" .dynamic true]
      type := .dynamic
      nullable := true
      guardsNulls := false }
    let record (i : Int64) := Value.object [("mark", .int i)]
    Accessor.ofPath shape false "mark" = .ok a ∧ a.type.isDynamic = true
      ∧ Integer.ofText? (Value.trimmed "0x1F") = none ∧ PlacesIntegers .standard "0x1F"
      ∧ MonotoneAgainst false "0x1F"
      ∧ ∃ p, compile .standard shape (.binary "mark" (some ">") (.string "0x1F")) = .ok p
        ∧ p.evaluate (record 0) = .ok false ∧ p.evaluate (record 1) = .ok true
        ∧ ∀ i : Int64, 1 ≤ i → p.evaluate (record i) = .ok true := by
  intro shape a record
  have resolves : Accessor.ofPath shape false "mark" = .ok a := by rfl
  have reads (i : Int64) : a.read (record i) = .ok (.int i) := by rfl
  have placed : PlacesIntegers .standard "0x1F" := by decide +kernel
  obtain ⟨iff, clauses⟩ := integers_monotone (s := .standard) resolves rfl "0x1F"
  obtain ⟨p, hp, closed⟩ := clauses .gt
  have hp : compile .standard shape (.binary "mark" (some ">") (.string "0x1F")) = .ok p := hp
  have decided : (compile .standard shape (.binary "mark" (some ">") (.string "0x1F"))).toOption.map
      (fun p => (p.evaluate (record 0), p.evaluate (record 1)))
        = some (.ok false, .ok true) := by decide +kernel
  rw [hp] at decided
  obtain ⟨zero, one⟩ := Prod.mk.inj (Option.some.inj decided)
  exact ⟨resolves, rfl, by decide, placed, iff.2 placed, p, hp, zero, one, fun i le =>
    (closed placed _ _ 1 i (reads 1) (reads i) le).1 (.inl rfl) one⟩

/-- The texts "6" and "10" stand on different sides of "5.5". -/
theorem integers_against_fraction :
    let shape := Shape.mk "Reading" [Field.plain "mark" .dynamic]
    let accepted := fun i : Int64 =>
      (compile .standard shape (.binary "mark" (some ">") (.string "5.5"))).toOption.map
        (·.evaluate (.object [("mark", .int i)]))
    untypedOrder false (.int 6) (.string "5.5") = .gt
      ∧ untypedOrder false (.int 10) (.string "5.5") = .lt
      ∧ accepted 6 = some (.ok true) ∧ accepted 10 = some (.ok false) := by
  decide +kernel

end Filter

end DataGrid
