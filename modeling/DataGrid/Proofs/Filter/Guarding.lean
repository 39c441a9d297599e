import DataGrid.Proofs.Accessor.Guarding
import DataGrid.Proofs.Filter.Alike
import DataGrid.Proofs.Filter.Meaning

/-!
# Filters with nulls guarded and not

* `Predicate.Guards` relates two predicates over the records of a shape: the first never fails for a
  null, and the second decides as the first does or fails for a null. Negation and the joining of
  clauses keep it (`Predicate.guards_congruent`).
* A clause compiles to such a pair with nulls guarded and not (`Clause.compile_alike`), and so do
  criteria (`Session.guarding_conservative`).
-/

namespace DataGrid

open Outcome (Alike)

namespace Predicate

/-- Over records that conform, the first predicate never fails for a null, and the second decides as
the first does or fails for a null. -/
def Guards (shape : Shape) (p q : Predicate) : Prop :=
  ∀ record, shape.conforms record = true → Outcome.Guards (p.evaluate record) (q.evaluate record)

variable {shape : Shape}

/-- A constant is the same whatever is guarded. -/
theorem guards_constant (b : Bool) : Guards shape (.constant b) (.constant b) := by
  intro record _
  rw [evaluate]
  exact .ok b

theorem evaluateAll_cons (record : Value) (part : Predicate) (rest : List Predicate) :
    evaluateAll record (part :: rest)
      = (part.evaluate record).bind fun b => if b then evaluateAll record rest else .ok false := by
  rw [evaluateAll]
  rcases part.evaluate record with _ | _ | _ <;> rfl

theorem evaluateAny_cons (record : Value) (part : Predicate) (rest : List Predicate) :
    evaluateAny record (part :: rest)
      = (part.evaluate record).bind fun b => if b then .ok true else evaluateAny record rest := by
  rw [evaluateAny]
  rcases part.evaluate record with _ | _ | _ <;> rfl

/-- Negation, conjunction and disjunction stop in both for the same reason, or in the second for a
null. -/
theorem guards_congruent : Congruent (Guards shape) where
  negate h := by
    intro record hrecord
    rw [evaluate_negate, evaluate_negate]
    exact (h record hrecord).map _
  all h := by
    intro record hrecord
    rw [evaluate, evaluate]
    induction h with
    | nil => exact .ok true
    | cons hpq _ ih =>
      rw [evaluateAll_cons, evaluateAll_cons]
      refine (hpq record hrecord).bind fun b => ?_
      cases b with
      | true => exact ih
      | false => exact .ok false
  any h := by
    intro record hrecord
    rw [evaluate, evaluate]
    induction h with
    | nil => exact .ok false
    | cons hpq _ ih =>
      rw [evaluateAny_cons, evaluateAny_cons]
      refine (hpq record hrecord).bind fun b => ?_
      cases b with
      | true => exact .ok true
      | false => exact ih

/-! ### Clauses -/

section Clauses

variable {a : Accessor} (guards : a.guardsNulls = true) (nullable : Bool)
include guards

/-- Testing the text of one value does not depend on what is guarded, but for a null. -/
theorem testText_guards (op : TextTest) (needle : String) (actual : Value) :
    Outcome.Guards (testText a op needle actual)
      (testText (a.unguarded nullable) op needle actual) := by
  rw [testText, testText, guards, Bool.not_true, Bool.and_false, if_neg Bool.false_ne_true]
  split
  · exact .fails _ _
  · exact .ok _

/-- Comparing one value does not depend on what is guarded, but for a null. -/
theorem satisfies_guards (op : Comparator) (actual literal : Value) (strategy : Strategy) :
    Outcome.Guards (satisfies a op actual literal strategy)
      (satisfies (a.unguarded nullable) op actual literal strategy) := by
  cases strategy with
  | compareTo cmp =>
    rw [satisfies, satisfies]
    split
    · exact .fails _ _
    · exact .ok _
  | _ => exact .ok _

/-- A test of a text that is read guards one of a text that is read without guarding. -/
theorem guards_text (op : TextTest) (needle : String) :
    Guards shape (.text a op needle) (.text (a.unguarded nullable) op needle) := by
  intro record _
  rw [evaluate, evaluate]
  exact (Accessor.read_guards guards nullable record).bind fun actual =>
    testText_guards guards nullable op needle actual

/-- A comparison guards the same one without guarding. -/
theorem guards_compare (op : Comparator) (literal : Value) (strategy : Strategy) :
    Guards shape (.compare a op literal strategy)
      (.compare (a.unguarded nullable) op literal strategy) := by
  intro record _
  rw [evaluate, evaluate]
  exact (Accessor.read_guards guards nullable record).bind fun actual =>
    satisfies_guards guards nullable op actual literal strategy

end Clauses

/-- Nothing stands in an order to a null. -/
theorem nullAware_null {op : Comparator} (order : op.isEquality = false)
    (cmp : Value → Value → Option Ordering) (actual : Value) :
    nullAware cmp op actual .null = false := by
  cases op with
  | eq | ne => cases order
  | _ => cases actual <;> rfl

/-- An order never holds of null, so that it is as good as false where null cannot be read. -/
theorem guards_never {a : Accessor} (settled : a.Settled shape) {op : Comparator}
    (order : op.isEquality = false) {strategy : Strategy}
    (hstrategy : strategy = .native ∨ strategy = .underlying) :
    Guards shape (.compare a op .null strategy) (.constant false) := by
  intro record hrecord
  obtain ⟨v, hv⟩ := settled.reads hrecord
  have never : satisfies a op v .null strategy = .ok false := by
    rcases hstrategy with rfl | rfl <;> exact congrArg Except.ok (nullAware_null order _ v)
  rw [evaluate, evaluate, hv, Except.bind, never]
  exact .ok false

end Predicate

open Predicate (Guards)

namespace Clause

variable {shape : Shape} {a b : Accessor}

/-- The comparison of a member with a literal in folded case. -/
def compareFolded (s : Settings) (a : Accessor) (op : Comparator) (literal : Value) :
    Except CompileError Predicate :=
  match strategy? s a op literal with
  | .ok (some strategy) => .ok (.compare a op literal strategy)
  | .ok none => .ok (.constant false)
  | .error e => .error e

/-- A comparison with null is settled when it is compiled, where no null can be read. -/
theorem compareTyped_eq (s : Settings) (a : Accessor) (op : Comparator) (literal : Value) :
    compareTyped s a op literal
      = if literal.isNull && !a.nullable && !op.isEquality then .ok (.constant false)
        else compareFolded s a op (foldLiteral s literal) := rfl

/-- An order of a settled member to a null has no strategy, or one that knows nulls. -/
theorem strategy?_null (s : Settings) (settled : a.Settled shape) {op : Comparator}
    (order : op.isEquality = false) :
    strategy? s a op .null = .ok none ∨ ∃ strategy, strategy? s a op .null = .ok (some strategy)
      ∧ (strategy = .native ∨ strategy = .underlying) := by
  obtain ⟨admits, usual, -⟩ := settled
  rw [strategy?, order, if_neg Bool.false_ne_true]
  cases htype : a.type with
  | string | object _ | dynamic => rw [htype] at admits; cases admits
  | custom _ => rw [htype] at usual; cases usual
  | bool | uuid => exact .inl rfl
  | enum _ => exact .inr ⟨.underlying, rfl, .inr rfl⟩
  | _ => exact .inr ⟨.native, rfl, .inl rfl⟩

/-- An order against null compiles to one that never holds. -/
theorem compareFolded_null (s : Settings) (settled : a.Settled shape) {op : Comparator}
    (order : op.isEquality = false) :
    Alike (Guards shape) (compareFolded s a op .null) (.ok (.constant false)) := by
  rw [compareFolded]
  rcases strategy?_null s settled order with hnone | ⟨strategy, hsome, hstrategy⟩
  · rw [hnone]
    exact .ok (Predicate.guards_constant false)
  · rw [hsome]
    exact .ok (Predicate.guards_never settled order hstrategy)

/-- Comparisons with accessors that differ in guarding compile to predicates that do. -/
theorem compareFolded_alike (s : Settings) (h : a.Guarding shape b) (op : Comparator)
    (literal : Value) :
    Alike (Guards shape) (compareFolded s a op literal) (compareFolded s b op literal) := by
  have strategies : strategy? s b op literal = strategy? s a op literal := by
    rw [h.same]
    rfl
  rw [compareFolded, compareFolded, strategies]
  rcases strategy? s a op literal with e | _ | strategy
  · exact .error e
  · exact .ok (Predicate.guards_constant false)
  · rw [h.same]
    exact .ok (Predicate.guards_compare h.guards _ op _ strategy)

/-- A comparison compiles alike. Where the accessor without guarding tells that there are no nulls,
an order to a null is known not to hold, and with guarding it is seen not to hold. -/
theorem compareTyped_alike (s : Settings) (h : a.Guarding shape b) (op : Comparator)
    (literal : Value) :
    Alike (Guards shape) (compareTyped s a op literal) (compareTyped s b op literal) := by
  rw [compareTyped_eq, compareTyped_eq]
  by_cases null : literal.isNull = true ∧ op.isEquality = false
  · obtain ⟨hnull, order⟩ := null
    obtain rfl := Value.isNull_iff.1 hnull
    have folded : foldLiteral s .null = .null := rfl
    simp only [hnull, order, Bool.true_and, Bool.not_false, Bool.and_true, folded]
    cases hb : b.nullable with
    | true =>
      rw [h.nullable hb]
      exact compareFolded_alike s h op .null
    | false =>
      cases a.nullable with
      | true => exact compareFolded_null s (h.settled hb) order
      | false => exact .ok (Predicate.guards_constant false)
  · have usual (nullable : Bool) : (literal.isNull && !nullable && !op.isEquality) = false := by
      revert null
      cases literal.isNull <;> cases op.isEquality <;> simp
    rw [usual, usual]
    exact compareFolded_alike s h op _

/-! ### Preparing -/

/-- What folds the case of a text if it is asked for. -/
def folded (s : Settings) (a : Accessor) : Accessor :=
  if s.stringToLower && a.type.isText then a.addLower else a

/-- Folding cases keeps that two accessors differ in nothing but guarding. -/
theorem folded_guarding (s : Settings) (h : a.Guarding shape b) :
    (folded s a).Guarding shape (folded s b) := by
  rw [folded, folded, h.type_eq]
  split
  next fold => exact h.addLower (Bool.and_eq_true_iff.1 fold).2
  next => exact h

theorem folded_unguarded (s : Settings) (a : Accessor) (nullable : Bool) :
    folded s (a.unguarded nullable) = (folded s a).unguarded nullable := by
  rw [folded, folded, Accessor.addLower_unguarded]
  show (if s.stringToLower && a.type.isText then _ else _) = _
  split <;> rfl

theorem folded_keeps (s : Settings) (a : Accessor) :
    (folded s a).guardsNulls = a.guardsNulls := by
  rw [folded]
  split
  · exact a.addLower_keeps.2.1
  · rfl

/-- For tests of text the accessor reads a text. -/
theorem prepare_of_test (s : Settings) {operation : String} {test : TextTest × Bool}
    (htest : textTest? operation = some test) (a : Accessor) :
    prepare s operation a = folded s a.forceText := by
  rw [prepare, htest]
  rfl

/-- For comparisons it reads what the member holds. -/
theorem prepare_of_comparison (s : Settings) {operation : String}
    (htest : textTest? operation = none) (a : Accessor) : prepare s operation a = folded s a := by
  rw [prepare, htest]
  rfl

/-- A clause compiles alike with nulls guarded and not. -/
theorem ofPrepared_alike (s : Settings) (h : a.Guarding shape b) (operation : String)
    (value : Value) :
    Alike (Guards shape) (ofPrepared s (prepare s operation a) operation value)
      (ofPrepared s (prepare s operation b) operation value) := by
  rw [ofPrepared, ofPrepared]
  cases htest : textTest? operation with
  | some test =>
    obtain ⟨op, turned⟩ := test
    have guards : (folded s a.forceText).guardsNulls = true := by
      rw [folded_keeps, a.forceText_keeps.2.1, h.guards]
    have text : Guards shape _ _ :=
      Predicate.guards_text guards b.nullable op (fold s value.text)
    rw [prepare_of_test s htest, prepare_of_test s htest, h.same, Accessor.forceText_unguarded,
      folded_unguarded]
    cases turned with
    | true => exact .ok (Predicate.guards_congruent.negate text)
    | false => exact .ok text
  | none =>
    rw [prepare_of_comparison s htest, prepare_of_comparison s htest]
    have prepared := folded_guarding s h
    rw [prepared.type_eq]
    cases Comparator.ofToken? operation with
    | none => exact .error _
    | some op =>
      cases hdynamic : (folded s a).type.isDynamic with
      | true =>
        rw [prepared.same]
        exact .ok (Predicate.guards_compare prepared.guards _ op value _)
      | false =>
        cases (folded s a).type.convert value with
        | ok literal => exact compareTyped_alike s prepared op literal
        | error _ => exact .ok (Predicate.guards_constant false)

/-- Clauses do not look at the setting, which their accessors carry. -/
theorem compile_guarding (s : Settings) (on : Bool) (a : Accessor) (operation : String)
    (value : Value) : compile (s.guarding on) a operation value = compile s a operation value := rfl

/-- A clause compiles or fails alike with and without guarding. -/
theorem compile_alike (s : Settings) (h : a.Guarding shape b) (operation : String) (value : Value) :
    Alike (Guards shape) (compile (s.guarding true) a operation value)
      (compile (s.guarding false) b operation value) := by
  rw [compile_guarding, compile_guarding]
  exact ofPrepared_alike s h (Text.lowerCase operation) value

end Clause

/-! ### Criteria -/

namespace Filter

variable {shape : Shape}

/-- A clause is compiled with the accessor of its path. -/
theorem compileClause_eq (s : Settings) (shape : Shape) (path operation : String) (value : Value) :
    compileClause s shape path operation value
      = (do Clause.compile s (← Accessor.ofPath shape s.guardNulls path) operation value) := by
  rw [compileClause]
  cases Accessor.ofPath shape s.guardNulls path <;> rfl

/-- Of a shape whose nulls are declared, a clause compiles alike with and without guarding. -/
theorem compileClause_alike (declared : shape.every Field.isDeclared = true)
    (usual : shape.every (fun f => !f.type.isCustom) = true) (s : Settings)
    (path operation : String) (value : Value) :
    Alike (Guards shape) (compileClause (s.guarding true) shape path operation value)
      (compileClause (s.guarding false) shape path operation value) := by
  rw [compileClause_eq, compileClause_eq]
  exact (Accessor.ofPath_alike declared usual path).bind fun _ _ h =>
    Clause.compile_alike s h operation value

end Filter

namespace Session

/-- Over a shape of plain and nullable members without custom types, and without custom compilers,
criteria fail to compile with nulls guarded for the reason for which they fail with nulls not
guarded. With nulls guarded a filter never fails for a null in a record that conforms; with nulls
not guarded it decides the same or fails for a null. -/
theorem guarding_conservative {shape : Shape} (declared : shape.every Field.isDeclared = true)
    (usual : shape.every (fun f => !f.type.isCustom) = true) {registry : Option Registry}
    (none : registry.getD [] = []) (s : Settings) (c : Criteria) :
    (∀ e, compiled (s.guarding true) shape registry c = .error e
        ↔ compiled (s.guarding false) shape registry c = .error e)
    ∧ ∀ p q, compiled (s.guarding true) shape registry c = .ok p →
        compiled (s.guarding false) shape registry c = .ok q →
        ∀ record, shape.conforms record = true →
          (∀ path, p.evaluate record ≠ .error (.nullReference path))
          ∧ (q.evaluate record = p.evaluate record
            ∨ ∃ path, q.evaluate record = .error (.nullReference path)) := by
  have alike := Filter.compileWith_alike Predicate.guards_congruent
    (Filter.compileClause_alike declared usual s) c
  rw [compiled_eq none, compiled_eq none]
  exact ⟨alike.error_iff, fun p q hp hq => alike.rel hp hq⟩

/-- Below a null no flag is greater than another; the rest of a filter is then not decided without
guarding. A number that is there is not less than a null in either way. -/
theorem guarding_conservative_below_null :
    let address := Shape.mk "Address" [Field.plain "paid" .bool, Field.plain "zip" .int32]
    let shape := Shape.mk "Customer"
      [Field.plain "address" (.object address), Field.plain "name" .string]
    let c := Criteria.group [
      .clause (.binary "address.paid" (some ">") (.bool false)), .connector "or",
      .clause (.binary "address.zip" (some "<") .null), .connector "or",
      .clause (.binary "name" (some "Contains") (.string "da"))]
    let away := Value.object [("name", .string "Ada")]
    let home := Value.object [
      ("address", .object [("paid", .bool false), ("zip", .int 7)]), ("name", .string "Bo")]
    shape.every Field.isDeclared = true ∧ shape.every (fun f => !f.type.isCustom) = true
      ∧ (some [] : Option Registry).getD [] = []
      ∧ shape.conforms away = true ∧ shape.conforms home = true
      ∧ ∃ p q, compiled (.guarding .standard true) shape (some []) c = .ok p
        ∧ compiled (.guarding .standard false) shape (some []) c = .ok q
        ∧ p.evaluate away = .ok true
        ∧ q.evaluate away = .error (.nullReference "address.paid")
        ∧ (∀ path, p.evaluate away ≠ .error (.nullReference path))
        ∧ q.evaluate home = p.evaluate home := by
  intro address shape c away home
  have declared : shape.every Field.isDeclared = true := by rfl
  have usual : shape.every (fun f => !f.type.isCustom) = true := by rfl
  have none : (some [] : Option Registry).getD [] = [] := rfl
  have haway : shape.conforms away = true := by rfl
  have hhome : shape.conforms home = true := by rfl
  have guarded : (compiled (.guarding .standard true) shape (some []) c).toOption.map
      (·.evaluate away) = some (.ok true) := by decide +kernel
  have unguarded : (compiled (.guarding .standard false) shape (some []) c).toOption.map
      (fun q => (q.evaluate away, q.evaluate home))
      = some (.error (.nullReference "address.paid"), .ok false) := by decide +kernel
  obtain ⟨-, conservative⟩ := guarding_conservative declared usual none .standard c
  cases hp : compiled (.guarding .standard true) shape (some []) c with
  | error e =>
    rw [hp] at guarded
    cases guarded
  | ok p =>
    cases hq : compiled (.guarding .standard false) shape (some []) c with
    | error e =>
      rw [hq] at unguarded
      cases unguarded
    | ok q =>
      rw [hp] at guarded
      rw [hq] at unguarded
      obtain ⟨hpaid, hdecided⟩ := Prod.ext_iff.1 (Option.some.inj unguarded)
      refine ⟨declared, usual, none, haway, hhome, p, q, rfl, rfl, Option.some.inj guarded, hpaid,
        (conservative p q hp hq away haway).1, ?_⟩
      -- what is decided without guarding is decided alike with it
      rcases (conservative p q hp hq home hhome).2 with same | ⟨path, fails⟩
      · exact same
      · cases hdecided.symm.trans fails

end Session

end DataGrid
