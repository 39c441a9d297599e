import DataGrid.Proofs.Filter.Operators
import DataGrid.Proofs.Text.LowerCase

/-!
# Texts found in folded case

A clause that tests the text of a member, or compares it by "=", decides on the text and the literal
as they are or on both in lower case (`Clause.compile_matching`). Folding the case is not to lose a
text that is found without.

* It loses no text that equals the literal, and none for a literal without capital sigmas.
* A capital sigma that ends a word in the literal but not in the text, or the other way round,
  becomes another letter there. A beginning or an ending is lost exactly if it has such a sigma
  (`Filter.folding_widens`).
-/

namespace DataGrid

/-- A way in which a text is searched for a literal. -/
inductive Matching where
  /-- the text is the literal -/
  | whole
  /-- the literal stands at a place in the text -/
  | part (test : TextTest)
  deriving DecidableEq

namespace Matching

/-- The operator that asks for it. -/
def token : Matching → String
  | whole => "="
  | part test => test.token

/-- Whether a text is found. -/
def finds : Matching → String → String → Bool
  | whole, text, needle => text == needle
  | part test, text, needle => test.holds text needle

/-- Whether texts may stand around the literal. -/
def Allows : Matching → (before after : List Char) → Prop
  | whole, before, after => before = [] ∧ after = []
  | part .contains, _, _ => True
  | part .startsWith, before, _ => before = []
  | part .endsWith, _, after => after = []

/-- The literal stands at a place where it is searched for, and its capital sigmas end words there
where they do in the literal. -/
def Keeps (m : Matching) (text needle : List Char) : Prop :=
  ∃ before after, m.Allows before after ∧ text = before ++ needle ++ after
    ∧ Text.KeepsEnds before needle after

variable {m : Matching} {text needle : String}

theorem finds_iff : m.finds text needle = true
    ↔ ∃ before after, m.Allows before after ∧ text.toList = before ++ needle.toList ++ after := by
  cases m with
  | whole => simp [finds, Allows, String.toList_inj]
  | part test =>
    cases test with
    | contains =>
      rw [finds, TextTest.holds, TextTest.occursIn_iff]
      simp [Allows, List.IsInfix, eq_comm]
    | startsWith =>
      rw [finds, TextTest.holds, List.isPrefixOf_iff_prefix]
      simp [Allows, List.IsPrefix, eq_comm]
    | endsWith =>
      rw [finds, TextTest.holds, List.isSuffixOf_iff_suffix]
      simp [Allows, List.IsSuffix, eq_comm]

/-- Nothing stands around the literal in lower case where nothing stood. -/
theorem Allows.lower {before after : List Char} (h : m.Allows before after)
    (right left : List Char) :
    m.Allows (Text.lowerBetween [] right before) (Text.lowerAfter left after) := by
  cases m with
  | whole =>
    obtain ⟨rfl, rfl⟩ := h
    exact ⟨rfl, rfl⟩
  | part test =>
    cases test with
    | contains => trivial
    | startsWith | endsWith =>
      obtain rfl := h
      rfl

/-- What is found with the ends of words kept is found in lower case. -/
theorem finds_lowerCase (h : m.Keeps text.toList needle.toList) :
    m.finds (Text.lowerCase text) (Text.lowerCase needle) = true := by
  obtain ⟨before, after, allowed, split, kept⟩ := h
  refine finds_iff.2 ⟨_, _, allowed.lower (needle.toList ++ after)
    (needle.toList.reverse ++ before.reverse), ?_⟩
  rw [Text.toList_lowerCase, Text.toList_lowerCase, split, Text.lowerAfter_around kept]

/-- What is found at a place that the operator names, and in lower case again, keeps the ends of its
words. -/
theorem keeps_of_finds (placed : m ≠ part .contains) (found : m.finds text needle = true)
    (again : m.finds (Text.lowerCase text) (Text.lowerCase needle) = true) :
    m.Keeps text.toList needle.toList := by
  obtain ⟨before, after, allowed, split⟩ := finds_iff.1 found
  refine ⟨before, after, allowed, split, ?_⟩
  cases m with
  | whole =>
    obtain ⟨rfl, rfl⟩ := allowed
    exact fun _ _ _ => rfl
  | part test =>
    cases test with
    | contains => exact absurd rfl placed
    | startsWith =>
      obtain rfl := allowed
      rw [finds, TextTest.holds, List.isPrefixOf_iff_prefix, Text.toList_lowerCase,
        Text.toList_lowerCase, split] at again
      exact Text.lowerAfter_prefix_iff.1 again
    | endsWith =>
      obtain rfl := allowed
      rw [finds, TextTest.holds, List.isSuffixOf_iff_suffix, Text.toList_lowerCase,
        Text.toList_lowerCase, split, List.append_nil] at again
      exact Text.lowerAfter_suffix_iff.1 again

/-- A literal without capital sigmas keeps them. -/
theorem keeps_of_not_mem (found : m.finds text needle = true)
    (none : Text.capitalSigma ∉ needle.toList) : m.Keeps text.toList needle.toList := by
  obtain ⟨before, after, allowed, split⟩ := finds_iff.1 found
  exact ⟨before, after, allowed, split, Text.keepsEnds_of_not_mem none⟩

end Matching

namespace Clause

variable {s : Settings} {a : Accessor} {record : Value} {text : String}

theorem read_prepare_string (ht : a.type = .string) (hread : a.read record = .ok (.string text))
    (operation : String) :
    (prepare s operation a).read record = .ok (.string (fold s text)) := by
  have kept : a.forceText = a := by
    rw [Accessor.forceText, ht]
    rfl
  have prepared : prepare s operation a = folded s a := by
    rw [prepare, kept, ite_self]
    rfl
  rw [prepared]
  exact read_folded (v := .string text) (by rw [ht]; rfl) (by rw [ht]; rfl) hread

/-- A test of the text of a member decides on the text and the literal, both folded if that is asked
for. -/
theorem compile_textTest (ht : a.type = .string) (hread : a.read record = .ok (.string text))
    (test : TextTest) (needle : String) :
    ∃ p, compile s a test.token (.string needle) = .ok p
      ∧ p.evaluate record = .ok (test.holds (fold s text) (fold s needle)) := by
  have word : Text.lowerCase test.token = test.token := by cases test <;> decide +kernel
  have named : textTest? test.token = some (test, false) := by cases test <;> rfl
  refine ⟨.text (prepare s test.token a) test (fold s needle), ?_, ?_⟩
  · rw [compile, word, ofPrepared, named]
    rfl
  · rw [Predicate.evaluate, read_prepare_string ht hread]
    rfl

/-- Equality of the text of a member and the literal, both folded if that is asked for. -/
theorem compile_equals (ht : a.type = .string) (hread : a.read record = .ok (.string text))
    (needle : String) :
    ∃ p, compile s a "=" (.string needle) = .ok p
      ∧ p.evaluate record = .ok (fold s text == fold s needle) := by
  have converts : a.type.convert (.string needle) = .ok (.string needle) := by
    rw [ht]
    rfl
  obtain ⟨p, compiled, decides⟩ := compile_typed (s := s) (by rw [ht]; rfl) converts
    (by rintro ⟨⟩) hread (by rw [ht]; rfl) .eq
  refine ⟨p, compiled, decides.trans (congrArg Except.ok ?_)⟩
  have alike : Value.Alike (.string (fold s text)) (.string (fold s needle)) := .string _ _
  rw [Bool.eq_iff_iff, beq_iff_eq]
  constructor
  · intro level
    exact Value.string.inj (alike.eq_of_order (beq_iff_eq.1 level))
  · intro same
    rw [foldLiteral, foldLiteral, same]
    exact beq_iff_eq.2 (Value.order_orders.refl rfl)

/-- A clause finds the text of a member as it is or in folded case. -/
theorem compile_matching (ht : a.type = .string) (hread : a.read record = .ok (.string text))
    (m : Matching) (needle : String) :
    ∃ p, compile s a m.token (.string needle) = .ok p
      ∧ p.evaluate record = .ok (m.finds (fold s text) (fold s needle)) := by
  cases m with
  | whole => exact compile_equals ht hread needle
  | part test => exact compile_textTest ht hread test needle

end Clause

namespace Filter

variable {s : Settings} {shape : Shape} {path : String} {a : Accessor} {record : Value}
variable {text : String}

/-- A text that is found as it is written is found in folded case if the literal stands there with
its capital sigmas kept, and so if it has none. Where the operator names the place, it is not found
otherwise. -/
theorem folding_widens (ha : Accessor.ofPath shape s.guardNulls path = .ok a)
    (ht : a.type = .string) (hread : a.read record = .ok (.string text)) (m : Matching)
    {operation : Option String}
    (hop : (operation.map Text.lowerCase).getD defaultOperation = m.token) (needle : String) :
    ∃ p q, compile (s.folding false) shape (.binary path operation (.string needle)) = .ok p
      ∧ compile (s.folding true) shape (.binary path operation (.string needle)) = .ok q
      ∧ (p.evaluate record = .ok true →
        (m.Keeps text.toList needle.toList ∨ Text.capitalSigma ∉ needle.toList →
          q.evaluate record = .ok true)
        ∧ (m ≠ .part .contains → q.evaluate record = .ok true →
          m.Keeps text.toList needle.toList)) := by
  obtain ⟨p, plain, decides⟩ :=
    Clause.compile_matching (s := s.folding false) ht hread m needle
  obtain ⟨q, folding, decides'⟩ :=
    Clause.compile_matching (s := s.folding true) ht hread m needle
  have compiled (on : Bool) :
      compile (s.folding on) shape (.binary path operation (.string needle))
        = Clause.compile (s.folding on) a m.token (.string needle) := by
    have resolved : Accessor.ofPath shape (s.folding on).guardNulls path = .ok a := ha
    rw [compile, compileWith, hop, compileClause, resolved]
  refine ⟨p, q, (compiled false).trans plain, (compiled true).trans folding, fun holds => ?_⟩
  have found : m.finds text needle = true := Except.ok.inj (decides.symm.trans holds)
  refine ⟨fun kept => decides'.trans (congrArg Except.ok ?_), fun placed holds' => ?_⟩
  · exact Matching.finds_lowerCase (kept.elim id (Matching.keeps_of_not_mem found))
  · exact Matching.keeps_of_finds placed found (Except.ok.inj (decides'.symm.trans holds'))

/-- A name that starts with a capital sigma does so in folded case too: no word ends there. -/
theorem folding_widens_initial_sigma :
    let shape := Shape.mk "Person" [Field.plain "name" .string]
    let a : Accessor := {
      path := "name"
      steps := [.member "name" .string true]
      type := .string
      nullable := true
      guardsNulls := false }
    let record := Value.object [("name", .string "ΣΟΦΙΑ")]
    let startsWith := Matching.part .startsWith
    Accessor.ofPath shape false "name" = .ok a ∧ a.read record = .ok (.string "ΣΟΦΙΑ")
      ∧ Text.lowerCase "StartsWith" = startsWith.token
      ∧ startsWith.Keeps "ΣΟΦΙΑ".toList "ΣΟ".toList
      ∧ ∃ p q, compile (Settings.standard.folding false) shape
          (.binary "name" (some "StartsWith") (.string "ΣΟ")) = .ok p
        ∧ compile (Settings.standard.folding true) shape
          (.binary "name" (some "StartsWith") (.string "ΣΟ")) = .ok q
        ∧ p.evaluate record = .ok true ∧ q.evaluate record = .ok true := by
  intro shape a record startsWith
  have resolves : Accessor.ofPath shape false "name" = .ok a := by rfl
  have reads : a.read record = .ok (.string "ΣΟΦΙΑ") := by rfl
  have word : ((some "StartsWith").map Text.lowerCase).getD defaultOperation
      = startsWith.token := by decide +kernel
  have kept : startsWith.Keeps "ΣΟΦΙΑ".toList "ΣΟ".toList :=
    startsWith.keeps_of_finds (by decide) (by decide +kernel) (by decide +kernel)
  obtain ⟨p, q, plain, folding, widens⟩ :=
    folding_widens (s := .standard) resolves rfl reads startsWith word "ΣΟ"
  have found : (compile (Settings.standard.folding false) shape
      (.binary "name" (some "StartsWith") (.string "ΣΟ"))).toOption.map (·.evaluate record)
        = some (.ok true) := by decide +kernel
  rw [plain] at found
  have holds : p.evaluate record = .ok true := Option.some.inj found
  exact ⟨resolves, reads, word, kept, p, q, plain, folding, holds, (widens holds).1 (.inl kept)⟩

/-- A capital sigma at the end of a name is not found in folded case. -/
theorem folding_loses_final_sigma :
    let shape := Shape.mk "Person" [Field.plain "name" .string]
    let record := Value.object [("name", .string "ΑΣ")]
    let decided := fun on => (compile (Settings.standard.folding on) shape
      (.binary "name" (some "contains") (.string "Σ"))).toOption.map (·.evaluate record)
    decided false = some (.ok true) ∧ decided true = some (.ok false) := by
  decide +kernel

end Filter

end DataGrid
