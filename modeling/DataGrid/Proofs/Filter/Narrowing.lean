import DataGrid.Proofs.Filter.Literal
import DataGrid.Proofs.Filter.Meaning

/-!
# Criteria narrowed down to keys

A client that opens a group narrows its criteria down to the keys of the group:
`Criteria.narrowed` joins them by `and` with a comparison for every key. The predicate of these
criteria holds where that of the criteria does and where a record has the keys as they are read back
(`Filter.compile_narrowed`).
-/

namespace DataGrid

namespace Criteria

/-- The JSON of criteria that are joined by `and`. -/
def joined (parts : List Json) : Json := .array (parts.intersperse (.string "and"))

/-- The JSON of a comparison of a member with a key. -/
def keyClause (selector : String) (key : Value) : Json :=
  .array [.string selector, .string "=", key.toJson]

/-- Criteria, if there are any, narrowed down to keys of selectors. -/
def narrowed (criteria : Option Json) (selectors : List String) (keys : List Value) : Json :=
  joined (criteria.toList ++ List.zipWith keyClause selectors keys)

/-- The items of a group whose clauses are joined by `and`. -/
def joinedItems (cs : List Criteria) : List CriteriaItem :=
  (cs.map CriteriaItem.clause).intersperse (.connector "and")

/-! ### Reading the JSON -/

theorem array_of_ofJson {j : Json} {c : Criteria} (h : ofJson j = .ok c) :
    ∃ first rest, j = .array (first :: rest) := by
  rcases j with _ | _ | _ | _ | _ | (_ | ⟨first, rest⟩) | _
  all_goals first | exact ⟨first, rest, rfl⟩ | cases h

theorem ofItems_clause {j : Json} {c : Criteria} (h : ofJson j = .ok c) (rest : List Json) :
    ofItems (j :: rest) = (ofItems rest).map (.clause c :: ·) := by
  obtain ⟨_, _, rfl⟩ := array_of_ofJson h
  rw [ofItems, h]

/-- Clauses with connectors between them are read as the items of a group. -/
theorem ofItems_joined {js : List Json} {cs : List Criteria}
    (h : List.Forall₂ (fun j c => ofJson j = .ok c) js cs) :
    ofItems (js.intersperse (.string "and")) = .ok (joinedItems cs) := by
  induction h with
  | nil => rfl
  | @cons j c js cs hjc hrest ih =>
    cases hrest with
    | nil => exact ofItems_clause hjc []
    | @cons j' c' js cs =>
      have next : (j :: j' :: js).intersperse (.string "and")
          = j :: .string "and" :: (j' :: js).intersperse (.string "and") := rfl
      rw [next, ofItems_clause hjc, ofItems, ih]
      rfl

/-- Joined criteria are read as a group. -/
theorem ofJson_joined {js : List Json} {cs : List Criteria}
    (h : List.Forall₂ (fun j c => ofJson j = .ok c) js cs) (some : cs ≠ []) :
    ofJson (joined js) = .ok (.group (joinedItems cs)) := by
  have items := ofItems_joined h
  cases h with
  | nil => exact absurd rfl some
  | @cons j c js cs hjc hrest =>
    obtain ⟨first, rest, rfl⟩ := array_of_ofJson hjc
    obtain ⟨more, hmore⟩ : ∃ more, (Json.array (first :: rest) :: js).intersperse (.string "and")
        = .array (first :: rest) :: more := by cases js <;> exact ⟨_, rfl⟩
    rw [joined, hmore, ofJson, ← hmore, items]
    rfl

/-- The clause of a key is read as a comparison with what its JSON gives. -/
theorem ofJson_keyClause {selector : String} (h : selector ≠ negationMark) (key : Value) :
    ofJson (keyClause selector key) = .ok (.binary selector (some "=") (.ofJson key.toJson)) := by
  rw [keyClause, ofJson]
  simp only [h, if_false]
  rfl

/-- The clauses of a group are those that were joined. -/
theorem clauses_joinedItems (cs : List Criteria) : clauses (joinedItems cs) = cs := by
  induction cs with
  | nil => rfl
  | cons c cs ih =>
    cases cs with
    | nil => rfl
    | cons d cs => exact congrArg (c :: ·) ih

/-- The clauses of joined criteria are joined by `and`. -/
theorem joinedByAnd_joinedItems (cs : List Criteria) {atHand : Option String}
    (h : JoinedByAnd atHand) : ∀ c ∈ connectors atHand (joinedItems cs), JoinedByAnd c := by
  induction cs generalizing atHand with
  | nil => exact fun c hc => nomatch hc
  | cons c cs ih =>
    cases cs with
    | nil => exact List.forall_mem_cons.2 ⟨h, fun c hc => nomatch hc⟩
    | cons d cs =>
      have word : MeansAnd "and" := by decide
      exact List.forall_mem_cons.2 ⟨h, ih word⟩

end Criteria

/-! ### The predicate -/

namespace Filter

open Criteria

variable {binary : String → String → Value → Except CompileError Predicate}

/-- Joined criteria decide as all of them. -/
theorem compileWith_joined {cs : List Criteria} {parts : List Predicate}
    (h : List.Forall₂ (fun c q => compileWith binary c = .ok q) cs parts) (some : cs ≠ []) :
    ∃ p, compileWith binary (.group (joinedItems cs)) = .ok p
      ∧ ∀ record, p.evaluate record = Predicate.evaluateAll record parts := by
  have joined := joinedByAnd_joinedItems cs (show JoinedByAnd none from trivial)
  -- a group joined by `and` throughout ends as a conjunction
  have conjunction : ((connectors none (joinedItems cs)).map
      fun c => decide (JoinedByAnd c)).getLastD true = true := by
    rw [List.getLastD_eq_getLast?]
    cases hlast : ((connectors none (joinedItems cs)).map
      fun c => decide (JoinedByAnd c)).getLast? with
    | none => rfl
    | some b =>
      obtain ⟨c, hc, rfl⟩ := List.mem_map.1 (List.mem_of_getLast? hlast)
      exact decide_eq_true (joined c hc)
  have one : OneConnector (joinedItems cs) := .inl fun c hc => joined c (List.mem_of_mem_tail hc)
  have nonempty : parts ≠ [] := by
    rintro rfl
    exact some (List.forall₂_nil_right_iff.1 h)
  obtain ⟨p, hp⟩ := exists_finish_iff.2 nonempty
  refine ⟨p, compileWith_group_eq_ok.2 ⟨parts, by rwa [clauses_joinedItems], one, hp⟩, ?_⟩
  intro record
  rw [evaluate_finish hp, conjunction]
  rfl

/-- All of some predicates that decide a record decide it as all of their outcomes. -/
theorem evaluateAll_eq {record : Value} {parts : List Predicate} {decided : List Bool}
    (h : List.Forall₂ (fun q b => q.evaluate record = .ok b) parts decided) :
    Predicate.evaluateAll record parts = .ok (decided.all id) := by
  induction h with
  | nil => rfl
  | @cons q b _ _ hq _ ih =>
    rw [Predicate.evaluateAll, hq, ih]
    cases b <;> rfl

/-! ### Keys -/

/-- The predicate of criteria in JSON; without criteria every record matches. -/
def ofCriteria (s : Settings) (shape : Shape) : Option Json → Except CompileError Predicate
  | none => .ok .always
  | some j => ofJson j >>= compile s shape

/-- A key of a member whose type has literals. -/
def IsKey (shape : Shape) (selector : String) (key : Value) : Prop :=
  selector ≠ negationMark ∧ ∃ a, Accessor.ofPath shape true selector = .ok a
    ∧ a.type.hasLiterals = true ∧ a.type.Admits key

/-- Whether a record has keys of selectors. -/
def hasKeys (shape : Shape) (selectors : List String) (keys : List Value) (record : Value) :
    List Bool :=
  List.zipWith (fun selector key => Grouping.sameKey key (shape.valueAt selector record))
    selectors keys

section Keys

variable {s : Settings} {shape : Shape} (guards : s.guardNulls = true)
variable (asWritten : s.stringToLower = false)
include guards asWritten

/-- The comparison of a member with a key holds where a record has the key, settled. -/
theorem compile_keyClause {selector : String} {key : Value} (h : IsKey shape selector key) :
    ∃ q, compile s shape (.binary selector (some "=") (.ofJson key.toJson)) = .ok q
      ∧ ∀ record, shape.conforms record = true →
        q.evaluate record = .ok (Grouping.sameKey key.settle (shape.valueAt selector record)) := by
  obtain ⟨-, a, ha, literals, hkey⟩ := h
  obtain ⟨q, hq, decides⟩ := Clause.evaluate_equal asWritten literals hkey
  refine ⟨q, ?_, fun record conforms => ?_⟩
  · have word : Text.lowerCase "=" = "=" := by decide +kernel
    rw [compile, compileWith, Option.map_some, Option.getD_some, word, compileClause, guards, ha]
    exact hq
  · obtain ⟨hread, hvalue⟩ := Shape.read_eq_valueAt ha
      (FieldType.isDynamic_of_isExact (FieldType.isExact_of_hasLiterals literals)) conforms
    exact decides record _ hread hvalue

theorem compile_keyClauses {selectors : List String} {keys : List Value}
    (h : List.Forall₂ (IsKey shape) selectors keys) :
    ∃ cs parts, List.Forall₂ (fun j c => ofJson j = .ok c)
      (List.zipWith keyClause selectors keys) cs
      ∧ List.Forall₂ (fun c q => compile s shape c = .ok q) cs parts
      ∧ ∀ record, shape.conforms record = true →
        List.Forall₂ (fun q b => q.evaluate record = .ok b) parts
          (hasKeys shape selectors (keys.map Value.settle) record) := by
  induction h with
  | nil => exact ⟨[], [], .nil, .nil, fun _ _ => .nil⟩
  | cons hkey _ ih =>
    obtain ⟨cs, parts, hcs, hparts, decide⟩ := ih
    obtain ⟨q, hq, decides⟩ := compile_keyClause guards asWritten hkey
    exact ⟨_, _, .cons (ofJson_keyClause hkey.1 _) hcs, .cons hq hparts,
      fun record conforms => .cons (decides record conforms) (decide record conforms)⟩

/-- Criteria narrowed down to keys hold where the criteria do and where a record has the keys,
settled. -/
theorem compile_narrowed {criteria : Option Json} {predicate : Predicate}
    (h : ofCriteria s shape criteria = .ok predicate) {selectors : List String}
    {keys : List Value} (some : selectors ≠ [])
    (hkeys : List.Forall₂ (IsKey shape) selectors keys) :
    ∃ p, ofCriteria s shape (.some (narrowed criteria selectors keys)) = .ok p
      ∧ ∀ record b, shape.conforms record = true → predicate.evaluate record = .ok b →
        p.evaluate record
          = .ok (b && (hasKeys shape selectors (keys.map Value.settle) record).all id) := by
  obtain ⟨cs, parts, hcs, hparts, decide⟩ := compile_keyClauses guards asWritten hkeys
  -- without criteria the keys alone are joined
  cases criteria with
  | none =>
    cases h
    have nonempty : cs ≠ [] := by
      rintro rfl
      cases hkeys with
      | nil => exact some rfl
      | cons _ _ => cases hcs
    obtain ⟨p, hp, all⟩ := compileWith_joined hparts nonempty
    refine ⟨p, ?_, fun record b conforms hb => ?_⟩
    · rw [ofCriteria, narrowed, Option.toList_none, List.nil_append, ofJson_joined hcs nonempty]
      exact hp
    · cases hb
      rw [all, evaluateAll_eq (decide record conforms), Bool.true_and]
  | some j =>
    obtain ⟨c, hc, hpredicate⟩ := Outcome.bind_eq_ok.1 h
    obtain ⟨p, hp, all⟩ := compileWith_joined (.cons hpredicate hparts) (List.cons_ne_nil c cs)
    refine ⟨p, ?_, fun record b conforms hb => ?_⟩
    · rw [ofCriteria, narrowed, Option.toList_some, List.singleton_append,
        ofJson_joined (.cons hc hcs) (List.cons_ne_nil c cs)]
      exact hp
    · rw [all, evaluateAll_eq (.cons hb (decide record conforms))]
      rfl

end Keys

end Filter

end DataGrid
