import DataGrid.Proofs.Outcome
import DataGrid.Proofs.Resolving

/-!
# What criteria mean

Criteria are read without compiling them:

* `Criteria.WellFormed` says which criteria there are: every clause is one by itself, every group
  has a clause, and the connectors in force in a group agree.
* `Criteria.reading` reads criteria over a record from left to right, given the reading of every
  clause, and stops where the outcome is known.

Compiling succeeds exactly for well-formed criteria, and the predicate that it gives decides records
as the criteria read (`Session.compile_means`).
-/

namespace DataGrid

/-- The word `and` in some letter case stands in the token, or an ampersand does. -/
def MeansAnd (token : String) : Prop :=
  (∃ word : List Char, word <:+: token.toList ∧ word.map Char.toLower = ['a', 'n', 'd'])
    ∨ '&' ∈ token.toList

/-- A clause is joined by `and`: its connector means so, or there is none. -/
def JoinedByAnd : Option String → Prop
  | some token => MeansAnd token
  | none => True

namespace Criteria

/-- The filters of a group, first to last. -/
def clauses : List CriteriaItem → List Criteria
  | [] => []
  | .connector _ :: rest => clauses rest
  | .clause c :: rest => c :: clauses rest

/-- The connectors in force before the clauses of a group, given the one at hand: the last since the
clause before, if there is one. -/
def connectors : Option String → List CriteriaItem → List (Option String)
  | _, [] => []
  | _, .connector token :: rest => connectors (some token) rest
  | atHand, .clause _ :: rest => atHand :: connectors none rest

/-- The connectors before the second, third and later clauses of a group. -/
def innerConnectors (items : List CriteriaItem) : List (Option String) :=
  (connectors none items).tail

/-- The connectors between the clauses of a group all mean `and`, or none does. -/
def OneConnector (items : List CriteriaItem) : Prop :=
  (∀ c ∈ innerConnectors items, JoinedByAnd c) ∨ ∀ c ∈ innerConnectors items, ¬ JoinedByAnd c

/-- A filter stands somewhere in another. -/
inductive Within : Criteria → Criteria → Prop where
  /-- a filter stands in itself -/
  | self (c : Criteria) : Within c c
  /-- what stands in a filter stands in its negation -/
  | negation {d inner : Criteria} (h : Within d inner) : Within d (.negation inner)
  /-- what stands in a clause stands in the group -/
  | group {d c : Criteria} {items : List CriteriaItem} (hc : c ∈ clauses items)
    (h : Within d c) : Within d (.group items)

/-- Criteria that can be read, given which clauses can. -/
structure WellFormed (alone : String → Option String → Value → Prop) (c : Criteria) : Prop where
  /-- every comparison can be read by itself -/
  comparisons : ∀ path operation value, Within (.binary path operation value) c →
    alone path operation value
  /-- every group has a clause -/
  inhabited : ∀ items, Within (.group items) c → clauses items ≠ []
  /-- no group is joined by both connectors -/
  joined : ∀ items, Within (.group items) c → OneConnector items

/-! ### Connectors -/

/-- A token is taken for a conjunction exactly if it means one. -/
theorem isConjunction_iff (token : String) :
    Filter.isConjunction token = true ↔ MeansAnd token := by
  rw [Filter.isConjunction, Bool.or_eq_true, TextTest.occursIn_iff, List.contains_iff_mem]
  refine or_congr_left ⟨fun h => ?_, fun ⟨word, hword, hlower⟩ => ?_⟩
  · obtain ⟨before, after, h⟩ := h
    obtain ⟨front, back, htoken, hfront, -⟩ := List.map_eq_append_iff.1 h.symm
    obtain ⟨start, word, rfl, -, hword⟩ := List.map_eq_append_iff.1 hfront
    exact ⟨word, ⟨start, back, htoken.symm⟩, hword⟩
  · rw [← hlower]
    exact hword.map Char.toLower

instance (token : String) : Decidable (MeansAnd token) :=
  decidable_of_iff _ (isConjunction_iff token)

instance : DecidablePred JoinedByAnd
  | some token => inferInstanceAs (Decidable (MeansAnd token))
  | none => inferInstanceAs (Decidable True)

/-! ### Reading -/

section Reading

variable (clause : String → Option String → Value → Except ReadError Bool)

mutual

/-- Reads criteria, given the reading of every comparison. -/
def reading : Criteria → Except ReadError Bool
  | .binary path operation value => clause path operation value
  | .negation inner => (reading inner).map (!·)
  | .group items =>
    if ∀ c ∈ innerConnectors items, JoinedByAnd c then readAll items else readAny items

/-- Reads clauses up to the first that does not hold. -/
def readAll : List CriteriaItem → Except ReadError Bool
  | [] => .ok true
  | .connector _ :: rest => readAll rest
  | .clause c :: rest => do if ← reading c then readAll rest else return false

/-- Reads clauses up to the first that holds. -/
def readAny : List CriteriaItem → Except ReadError Bool
  | [] => .ok false
  | .connector _ :: rest => readAny rest
  | .clause c :: rest => do if ← reading c then return true else readAny rest

end

end Reading

mutual

/-- What holds of comparisons, of a negation if of its operand, and of a group if of its clauses,
holds of all criteria. -/
theorem induct {P : Criteria → Prop}
    (binary : ∀ path operation value, P (.binary path operation value))
    (negation : ∀ inner, P inner → P (.negation inner))
    (group : ∀ items, (∀ c ∈ clauses items, P c) → P (.group items)) : (c : Criteria) → P c
  | .binary path operation value => binary path operation value
  | .negation inner => negation inner (induct binary negation group inner)
  | .group items => group items (induct_clauses binary negation group items)

theorem induct_clauses {P : Criteria → Prop}
    (binary : ∀ path operation value, P (.binary path operation value))
    (negation : ∀ inner, P inner → P (.negation inner))
    (group : ∀ items, (∀ c ∈ clauses items, P c) → P (.group items)) :
    (items : List CriteriaItem) → ∀ c ∈ clauses items, P c
  | [] => fun _ h => nomatch h
  | .connector _ :: rest => induct_clauses binary negation group rest
  | .clause d :: rest => List.forall_mem_cons.2
    ⟨induct binary negation group d, induct_clauses binary negation group rest⟩

end

/-! ### Parts of criteria -/

/-- Within a negation are itself and what is within its operand. -/
theorem within_negation {d inner : Criteria} :
    Within d (.negation inner) ↔ d = .negation inner ∨ Within d inner := by
  constructor
  · rintro (_ | h)
    · exact .inl rfl
    · exact .inr h
  · rintro (rfl | h)
    · exact .self _
    · exact .negation h

/-- Within a group are itself and what is within its clauses. -/
theorem within_group {d : Criteria} {items : List CriteriaItem} :
    Within d (.group items) ↔ d = .group items ∨ ∃ c ∈ clauses items, Within d c := by
  constructor
  · rintro (_ | _ | ⟨hc, h⟩)
    · exact .inl rfl
    · exact .inr ⟨_, hc, h⟩
  · rintro (rfl | ⟨c, hc, h⟩)
    · exact .self _
    · exact .group hc h

section WellFormed

variable {alone : String → Option String → Value → Prop}

/-- A clause is well formed if it is by itself. -/
theorem wellFormed_binary {path : String} {operation : Option String} {value : Value} :
    WellFormed alone (.binary path operation value) ↔ alone path operation value := by
  constructor
  · exact fun h => h.comparisons _ _ _ (.self _)
  · intro h
    refine ⟨fun p o v within => ?_, fun items within => ?_, fun items within => ?_⟩
    all_goals cases within
    exact h

theorem wellFormed_negation {inner : Criteria} :
    WellFormed alone (.negation inner) ↔ WellFormed alone inner := by
  constructor
  · intro ⟨comparisons, inhabited, joined⟩
    exact ⟨fun _ _ _ h => comparisons _ _ _ (.negation h), fun _ h => inhabited _ (.negation h),
      fun _ h => joined _ (.negation h)⟩
  · intro ⟨comparisons, inhabited, joined⟩
    refine ⟨fun p o v within => ?_, fun items within => ?_, fun items within => ?_⟩
    · exact comparisons p o v ((within_negation.1 within).resolve_left (by simp))
    · exact inhabited items ((within_negation.1 within).resolve_left (by simp))
    · exact joined items ((within_negation.1 within).resolve_left (by simp))

/-- A group is well formed if its clauses are, if there are some, and if one connector joins
them. -/
theorem wellFormed_group {items : List CriteriaItem} :
    WellFormed alone (.group items)
      ↔ (∀ c ∈ clauses items, WellFormed alone c) ∧ clauses items ≠ [] ∧ OneConnector items := by
  constructor
  · intro ⟨comparisons, inhabited, joined⟩
    refine ⟨fun c hc => ?_, inhabited _ (.self _), joined _ (.self _)⟩
    exact ⟨fun _ _ _ h => comparisons _ _ _ (.group hc h), fun _ h => inhabited _ (.group hc h),
      fun _ h => joined _ (.group hc h)⟩
  · intro ⟨parts, nonempty, agree⟩
    refine ⟨fun p o v within => ?_, fun items' within => ?_, fun items' within => ?_⟩
    · rcases within_group.1 within with h | ⟨c, hc, h⟩
      · cases h
      · exact (parts c hc).comparisons p o v h
    · rcases within_group.1 within with h | ⟨c, hc, h⟩
      · cases h
        exact nonempty
      · exact (parts c hc).inhabited items' h
    · rcases within_group.1 within with h | ⟨c, hc, h⟩
      · cases h
        exact agree
      · exact (parts c hc).joined items' h

end WellFormed

/-! ### The connectors of a group in the middle of being compiled -/

/-- The connectors that are still to come agree, given the number of clauses before them and the
connector before the last of these. -/
def Agree : Nat → Bool → List (Option String) → Prop
  | _, _, [] => True
  | n, conjunction, c :: rest =>
    (1 < n → conjunction = decide (JoinedByAnd c)) ∧ Agree (n + 1) (decide (JoinedByAnd c)) rest

/-- From the second clause on, connectors agree exactly if all of them are the first. -/
theorem agree_iff {n : Nat} (hn : 1 < n) (conjunction : Bool) (cs : List (Option String)) :
    Agree n conjunction cs ↔ ∀ c ∈ cs, decide (JoinedByAnd c) = conjunction := by
  induction cs generalizing n conjunction with
  | nil => simp [Agree]
  | cons c rest ih =>
    rw [Agree, ih (Nat.lt_succ_of_lt hn), List.forall_mem_cons]
    constructor
    · rintro ⟨h, hrest⟩
      exact ⟨(h hn).symm, fun d hd => (hrest d hd).trans (h hn).symm⟩
    · rintro ⟨rfl, hrest⟩
      exact ⟨fun _ => rfl, hrest⟩

/-- Compiling a group checks that it has one connector. -/
theorem agree_connectors (items : List CriteriaItem) :
    Agree 0 true (connectors none items) ↔ OneConnector items := by
  rw [OneConnector, innerConnectors]
  -- the first two connectors are compared with nothing
  rcases connectors none items with _ | ⟨first, _ | ⟨second, rest⟩⟩
  · simp [Agree]
  · simp [Agree]
  · simp only [Agree, agree_iff (show 1 < 0 + 1 + 1 by decide), List.tail_cons,
      List.forall_mem_cons]
    by_cases h : JoinedByAnd second <;> simp [h]

/-- The connector before the last of several clauses is that of the group. -/
theorem last_connector {cs : List (Option String)} (h : Agree 0 true cs) (hlen : 1 < cs.length) :
    (cs.map fun c => decide (JoinedByAnd c)).getLastD true
      = decide (∀ c ∈ cs.tail, JoinedByAnd c) := by
  rcases cs with _ | ⟨first, _ | ⟨second, rest⟩⟩
  · cases hlen
  · simp at hlen
  · obtain ⟨-, -, h⟩ := h
    rw [agree_iff (by decide)] at h
    have all : ∀ d ∈ second :: rest, decide (JoinedByAnd d) = decide (JoinedByAnd second) :=
      List.forall_mem_cons.2 ⟨rfl, h⟩
    have last : ((second :: rest).map fun c => decide (JoinedByAnd c)).getLastD
        (decide (JoinedByAnd first)) = decide (JoinedByAnd second) := by
      obtain ⟨d, hd, hlast⟩ := List.mem_map.1 (List.getLast_mem (l := (second :: rest).map
        fun c => decide (JoinedByAnd c)) (by simp))
      rw [List.getLastD_eq_getLast?, List.getLast?_eq_some_getLast (by simp), Option.getD_some,
        ← hlast, all d hd]
    rw [List.map_cons, List.getLastD_cons, last, List.tail_cons, decide_eq_decide]
    refine ⟨fun hsecond d hd => ?_, fun hall => hall second List.mem_cons_self⟩
    exact of_decide_eq_true ((all d hd).trans (decide_eq_true hsecond))

/-- There is one place for a connector before each clause. -/
theorem length_connectors (atHand : Option String) (items : List CriteriaItem) :
    (connectors atHand items).length = (clauses items).length := by
  induction items generalizing atHand with
  | nil => rfl
  | cons item rest ih =>
    cases item with
    | connector token => exact ih (some token)
    | clause c => exact congrArg (· + 1) (ih none)

end Criteria

open Criteria

/-! ### Compiling -/

namespace Filter

variable {binary : String → String → Value → Except CompileError Predicate}

/-- A clause may join the ones before it if there is one of these at most, or if the connector
between them is this one. -/
theorem disagrees_eq_false_iff {j : Joining} {atHand : Option String}
    (hnext : j.next = decide (JoinedByAnd atHand)) :
    j.disagrees = false
      ↔ (1 < j.operands.length → j.conjunction = decide (JoinedByAnd atHand)) := by
  rw [Joining.disagrees, hnext, Bool.and_eq_false_imp, decide_eq_true_iff, bne_eq_false_iff_eq]

/-- The step: a clause of a group compiles if it may join the ones before it. -/
theorem compileItems_clause_eq_ok {c : Criteria} {rest : List CriteriaItem} {j : Joining}
    {p : Predicate} :
    compileItems binary (.clause c :: rest) j = .ok p ↔ j.disagrees = false
      ∧ ∃ q, compileWith binary c = .ok q ∧ compileItems binary rest (j.push q) = .ok p := by
  rw [compileItems]
  cases j.disagrees with
  | true => simp [bind, Except.bind, throw, throwThe, MonadExceptOf.throw]
  | false => exact Outcome.bind_eq_ok.trans (and_iff_right rfl).symm

/-- Compiling the rest of a group succeeds if its clauses compile, its connectors agree, and there
is a clause in all. -/
theorem compileItems_eq_ok {items : List CriteriaItem} {j : Joining} (atHand : Option String)
    (hnext : j.next = decide (JoinedByAnd atHand)) {p : Predicate} :
    compileItems binary items j = .ok p ↔
      ∃ parts, List.Forall₂ (fun c q => compileWith binary c = .ok q) (clauses items) parts
        ∧ Agree j.operands.length j.conjunction (connectors atHand items)
        ∧ Joining.finish ⟨j.operands ++ parts,
            ((connectors atHand items).map fun c => decide (JoinedByAnd c)).getLastD j.conjunction,
            true⟩ = .ok p := by
  -- on the items that are left; `j` holds the clauses so far, and `atHand` is the connector in
  -- force before the next one
  induction items generalizing j atHand with
  | nil =>
    rw [compileItems, clauses, connectors]
    constructor
    · intro h
      refine ⟨[], .nil, trivial, ?_⟩
      rw [List.append_nil]
      cases hj : j.finish <;> rw [hj] at h <;> cases h
      exact hj
    · rintro ⟨parts, hparts, -, h⟩
      cases hparts
      rw [List.append_nil] at h
      have hj : j.finish = .ok p := h
      rw [hj]
      rfl
  | cons item rest ih =>
    cases item with
    | connector token =>
      rw [compileItems, clauses, connectors]
      refine ih (j := j.connect token) (some token) ?_
      rw [Bool.eq_iff_iff, decide_eq_true_iff]
      exact isConjunction_iff token
    | clause c =>
      rw [compileItems_clause_eq_ok, disagrees_eq_false_iff hnext, clauses, connectors, Agree]
      simp only [List.forall₂_cons_left_iff, List.map_cons, List.getLastD_cons]
      have push (q : Predicate) := ih (j := j.push q) none rfl
      simp only [push]
      simp only [Joining.push, hnext, List.length_append, List.length_singleton,
        List.append_assoc, List.singleton_append]
      constructor
      · rintro ⟨here, q, hq, parts, hparts, agree, h⟩
        exact ⟨q :: parts, ⟨q, parts, hq, hparts, rfl⟩, ⟨here, agree⟩, h⟩
      · rintro ⟨_, ⟨q, parts, hq, hparts, rfl⟩, ⟨here, agree⟩, h⟩
        exact ⟨here, q, hq, parts, hparts, agree, h⟩

/-- Compiling a group succeeds if its clauses compile, one connector joins them, and there is a
clause. -/
theorem compileWith_group_eq_ok {items : List CriteriaItem} {p : Predicate} :
    compileWith binary (.group items) = .ok p ↔
      ∃ parts, List.Forall₂ (fun c q => compileWith binary c = .ok q) (clauses items) parts
        ∧ OneConnector items
        ∧ Joining.finish ⟨parts,
            ((connectors none items).map fun c => decide (JoinedByAnd c)).getLastD true,
            true⟩ = .ok p := by
  rw [compileWith, compileItems_eq_ok none rfl]
  simp only [← agree_connectors]
  rfl

/-- A group ends well if there is a clause in it. -/
theorem exists_finish_iff {parts : List Predicate} {conjunction next : Bool} :
    (∃ p, Joining.finish ⟨parts, conjunction, next⟩ = .ok p) ↔ parts ≠ [] := by
  rcases parts with _ | ⟨q, _ | ⟨q', rest⟩⟩ <;> simp [Joining.finish]

/-- Criteria compile exactly if they are well-formed. -/
theorem compileWith_succeeds_iff {alone : String → Option String → Value → Prop}
    (halone : ∀ path operation value, alone path operation value
      ↔ ∃ p, compileWith binary (.binary path operation value) = .ok p) (c : Criteria) :
    (∃ p, compileWith binary c = .ok p) ↔ WellFormed alone c := by
  induction c using Criteria.induct with
  | binary path operation value => rw [wellFormed_binary, halone]
  | negation inner ih =>
    rw [wellFormed_negation, ← ih, compileWith]
    refine ⟨fun ⟨p, h⟩ => ?_, fun ⟨p, h⟩ => ⟨p.negate, Outcome.bind_eq_ok.2 ⟨p, h, rfl⟩⟩⟩
    obtain ⟨q, hq, -⟩ := Outcome.bind_eq_ok.1 h
    exact ⟨q, hq⟩
  | group items ih =>
    rw [wellFormed_group]
    simp only [compileWith_group_eq_ok]
    constructor
    · rintro ⟨p, parts, hparts, one, hfinish⟩
      refine ⟨fun c hc => (ih c hc).1 ?_, fun hnil => ?_, one⟩
      · obtain ⟨q, -, hq⟩ := Outcome.exists_of_mapM_eq_ok (Outcome.mapM_eq_ok.2 hparts) hc
        exact ⟨q, hq⟩
      · rw [hnil, List.forall₂_nil_left_iff] at hparts
        exact exists_finish_iff.1 ⟨p, hfinish⟩ hparts
    · rintro ⟨each, nonempty, one⟩
      obtain ⟨parts, hparts⟩ := Outcome.exists_mapM_eq_ok fun c hc => (ih c hc).2 (each c hc)
      have hparts := Outcome.mapM_eq_ok.1 hparts
      have some : parts ≠ [] := by
        rintro rfl
        exact nonempty (List.forall₂_nil_right_iff.1 hparts)
      obtain ⟨p, hfinish⟩ := exists_finish_iff.2 some
      exact ⟨p, parts, hparts, one, hfinish⟩

theorem evaluateAll_singleton (record : Value) (p : Predicate) :
    Predicate.evaluateAll record [p] = p.evaluate record := by
  rw [Predicate.evaluateAll]
  rcases p.evaluate record with _ | _ | _ <;> rfl

theorem evaluateAny_singleton (record : Value) (p : Predicate) :
    Predicate.evaluateAny record [p] = p.evaluate record := by
  rw [Predicate.evaluateAny]
  rcases p.evaluate record with _ | _ | _ <;> rfl

/-- The predicate of a group decides as all of its parts, or as some. -/
theorem evaluate_finish {j : Joining} {p : Predicate} (h : j.finish = .ok p) (record : Value) :
    p.evaluate record = if j.conjunction then Predicate.evaluateAll record j.operands
      else Predicate.evaluateAny record j.operands := by
  obtain ⟨operands, conjunction, next⟩ := j
  rcases operands with _ | ⟨q, _ | ⟨q', rest⟩⟩
  · cases h
  · cases h
    rw [evaluateAll_singleton, evaluateAny_singleton, ite_self]
  · cases conjunction <;> cases h <;> rfl

section Parts

variable {clause : String → Option String → Value → Except ReadError Bool} {record : Value}

/-- Clauses read as their predicates decide. -/
theorem readAll_eq {items : List CriteriaItem} {parts : List Predicate}
    (h : List.Forall₂ (fun c q => q.evaluate record = reading clause c) (clauses items) parts) :
    Predicate.evaluateAll record parts = readAll clause items := by
  induction items generalizing parts with
  | nil =>
    cases h
    rfl
  | cons item rest ih =>
    cases item with
    | connector token => exact ih h
    | clause c =>
      obtain ⟨q, parts, hq, hparts, rfl⟩ := List.forall₂_cons_left_iff.1 h
      rw [Predicate.evaluateAll, readAll, hq, ih hparts]
      rcases reading clause c with _ | _ | _ <;> rfl

/-- A disjunction of compiled clauses is the short-circuit reading of these. -/
theorem readAny_eq {items : List CriteriaItem} {parts : List Predicate}
    (h : List.Forall₂ (fun c q => q.evaluate record = reading clause c) (clauses items) parts) :
    Predicate.evaluateAny record parts = readAny clause items := by
  induction items generalizing parts with
  | nil =>
    cases h
    rfl
  | cons item rest ih =>
    cases item with
    | connector token => exact ih h
    | clause c =>
      obtain ⟨q, parts, hq, hparts, rfl⟩ := List.forall₂_cons_left_iff.1 h
      rw [Predicate.evaluateAny, readAny, hq, ih hparts]
      rcases reading clause c with _ | _ | _ <;> rfl

end Parts

/-- Compiled criteria decide a record as the criteria read, clause by clause. -/
theorem evaluate_compileWith {clause : String → Option String → Value → Except ReadError Bool}
    {record : Value} (hclause : ∀ path operation value q,
      compileWith binary (.binary path operation value) = .ok q →
        q.evaluate record = clause path operation value)
    {c : Criteria} {p : Predicate} (h : compileWith binary c = .ok p) :
    p.evaluate record = reading clause c := by
  induction c using Criteria.induct generalizing p with
  | binary path operation value => exact hclause path operation value p h
  | negation inner ih =>
    rw [compileWith] at h
    obtain ⟨q, hq, h⟩ := Outcome.bind_eq_ok.1 h
    cases h
    rw [Predicate.evaluate_negate, ih hq, reading]
  | group items ih =>
    obtain ⟨parts, hparts, one, hfinish⟩ := compileWith_group_eq_ok.1 h
    have each : List.Forall₂ (fun c q => q.evaluate record = reading clause c)
        (clauses items) parts :=
      ((List.forall₂_and_left _ _).2 ⟨fun c hc q => ih c hc (p := q), hparts⟩).imp
        fun c q ⟨h, hq⟩ => h q hq
    rw [evaluate_finish hfinish, reading, readAll_eq each, readAny_eq each]
    rw [← agree_connectors] at one
    -- the connector of a group of one clause does not matter
    obtain several | single : 1 < parts.length ∨ parts.length ≤ 1 := Nat.lt_or_ge _ _
    · rw [← hparts.length_eq, ← length_connectors none] at several
      simp only [last_connector one several, decide_eq_true_iff]
      rfl
    · have none : ∀ c ∈ innerConnectors items, JoinedByAnd c := by
        rw [← hparts.length_eq, ← length_connectors none] at single
        have empty : innerConnectors items = [] :=
          List.eq_nil_of_length_eq_zero (by rw [innerConnectors, List.length_tail]; omega)
        rw [empty]
        exact fun c hc => nomatch hc
      rw [if_pos none]
      rcases parts with _ | ⟨q, _ | ⟨q', rest⟩⟩
      · cases hfinish
      · rw [← readAll_eq each, ← readAny_eq each, evaluateAll_singleton, evaluateAny_singleton,
          ite_self]
      · simp at single

end Filter

namespace Session

/-- What a compiler of criteria that has compiled nothing makes of criteria. -/
def compiled (s : Settings) (shape : Shape) (registry : Option Registry) (c : Criteria) :
    Except CompileError Predicate :=
  ((compile c).run.run (fresh s shape registry)).1

/-- What a clause decides of a record by itself; a clause that does not compile holds nowhere. -/
def decides (s : Settings) (shape : Shape) (registry : Option Registry) (record : Value)
    (path : String) (operation : Option String) (value : Value) : Except ReadError Bool :=
  match compiled s shape registry (.binary path operation value) with
  | .ok p => p.evaluate record
  | .error _ => .ok false

/-- Without custom compilers a session compiles as the filter by itself does. -/
theorem compiled_eq {s : Settings} {shape : Shape} {registry : Option Registry}
    (h : registry.getD [] = []) (c : Criteria) :
    compiled s shape registry c = Filter.compile s shape c :=
  (computes_compile c).run_eq (plain_fresh h)

/-- Without custom compilers, criteria compile exactly if every clause compiles by itself, every
group has a clause, and every group has one connector; and the predicate decides every record as the
criteria read. -/
theorem compile_means (s : Settings) (shape : Shape) (registry : Option Registry)
    (none : registry.getD [] = []) (c : Criteria) :
    ((∃ p, compiled s shape registry c = .ok p) ↔ WellFormed (fun path operation value =>
        ∃ p, compiled s shape registry (.binary path operation value) = .ok p) c)
    ∧ ∀ p, compiled s shape registry c = .ok p → ∀ record,
        p.evaluate record = reading (decides s shape registry record) c := by
  refine ⟨?_, fun p h record => ?_⟩
  · rw [compiled_eq none]
    exact Filter.compileWith_succeeds_iff (fun _ _ _ => by rw [compiled_eq none]; rfl) c
  · rw [compiled_eq none] at h
    refine Filter.evaluate_compileWith (fun path operation value q hq => ?_) h
    rw [decides, compiled_eq none]
    exact (congrArg (fun outcome => match outcome with
      | .ok p => p.evaluate record
      | .error _ => .ok false) hq).symm

/-- An `or` written last before its clause joins both clauses of the group, one of them turned. -/
theorem compile_means_older_or_unnamed :
    let shape := Shape.mk "Person" [Field.plain "age" .int64, Field.plain "name" .string]
    let c := Criteria.group [
      .clause (.binary "age" (some ">") (.int 30)), .connector "and", .connector "or",
      .clause (.negation (.binary "name" none (.string "Ada")))]
    let record := Value.object [("age", .int 20), ("name", .string "Ada")]
    (some [] : Option Registry).getD [] = []
      ∧ (WellFormed (fun path operation value =>
          ∃ p, compiled .standard shape (some []) (.binary path operation value) = .ok p) c)
      ∧ ∃ p, compiled .standard shape (some []) c = .ok p
        ∧ p.evaluate record = reading (decides .standard shape (some []) record) c
        ∧ p.evaluate record = .ok false := by
  intro shape c record
  obtain ⟨succeeds, means⟩ := compile_means .standard shape (some []) rfl c
  have outcome : (compiled .standard shape (some []) c).toOption.map (·.evaluate record)
      = some (.ok false) := by decide +kernel
  obtain ⟨p, hp⟩ : ∃ p, compiled .standard shape (some []) c = .ok p := ⟨_, rfl⟩
  rw [hp] at outcome
  exact ⟨rfl, succeeds.1 ⟨p, hp⟩, p, hp, means p hp record, Option.some.inj outcome⟩

end Session

end DataGrid
