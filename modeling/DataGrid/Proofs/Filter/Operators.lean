import DataGrid.Proofs.Filter.Guarding
import DataGrid.Proofs.Value.Ordering

/-!
# The operators of comparisons

The six comparisons of a member with a literal belong together, whatever the type of the member, the
settings and the strategy by which each of them compares.

* Two values of one kind are placed by `Value.order`, and each strategy that a type asks for decides
  an operator as that place does (`Clause.satisfies_typed`). So all six comparisons follow one
  outcome (`Filter.comparisons_follow`).
* A comparison by "<>" is the negation of that by "=", wherever that is decided
  (`Predicate.satisfies_ne`), nulls and custom types included.

The case of texts is folded in the literal while a clause is compiled and in the member while a
record is read; `Accessor.read_addLower` says that both fold in the same way.
-/

namespace DataGrid

/-! ### Folding the case -/

/-- A step that folds the case folds the text that a text step makes. -/
theorem Step.apply_lowercase {source : FieldType} {v : Value} {text : String}
    (h : Step.apply (.stringify source) v = .value (.string text)) :
    Step.apply (.lowercase (some source)) v = .value (.string (Text.lowerCase text)) := by
  cases v with
  | null =>
    simp only [apply] at h ⊢
    split at h
    next => cases h
    next settled =>
      cases h
      rw [if_neg settled]
      rfl
  | string s => cases source <;> cases h <;> rfl
  | _ => cases h; rfl

namespace Accessor

variable {a : Accessor} {record : Value}

/-- A null on the way is read as a null or as a failure. -/
theorem reach_of_read_eq_ok {v : Value} (h : a.read record = .ok v) (some : v ≠ .null) :
    Step.reach a.steps record = .value v := by
  rw [read_eq] at h
  cases hreach : Step.reach a.steps record with
  | value w =>
    rw [hreach] at h
    cases h
    rfl
  | missing =>
    rw [hreach, ending, onMissing] at h
    split at h
    · exact absurd (Except.ok.inj h).symm some
    · cases h
  | mismatch found =>
    rw [hreach] at h
    cases h

/-- Folding the case of an accessor folds the texts that it reads. -/
theorem read_addLower {text : String} (h : a.read record = .ok (.string text)) :
    a.addLower.read record = .ok (.string (Text.lowerCase text)) := by
  have reached := reach_of_read_eq_ok h (by rintro ⟨⟩)
  suffices Step.reach a.addLower.steps record = .value (.string (Text.lowerCase text)) by
    rw [read_eq, this]
    rfl
  rw [addLower]
  split
  next source hlast =>
    obtain ⟨before, hsteps⟩ := List.getLast?_eq_some_iff.1 hlast
    simp only [hsteps, List.dropLast_concat]
    rw [hsteps, Step.reach_append] at reached
    rw [Step.reach_append]
    cases hbefore : Step.reach before record with
    | value v =>
      rw [hbefore, StepResult.andThen, Step.reach_singleton] at reached
      rw [StepResult.andThen, Step.reach_singleton, Step.apply_lowercase reached]
    | missing => rw [hbefore] at reached; cases reached
    | mismatch found => rw [hbefore] at reached; cases reached
  next => rw [Step.reach_append, reached]; rfl

end Accessor

/-! ### Values of one kind -/

namespace FieldType

variable {t : FieldType} {v w : Value}

/-- What a literal is converted to is one of the type. -/
theorem holds_of_convert? (ht : t.isExact = true) {literal : Value}
    (h : t.convert? literal = some w) : t.holds w = true := by
  cases t <;> try cases ht
  case string =>
    cases literal <;> cases h <;> rfl
  case dateTime =>
    cases literal <;> simp only [convert?, Option.map_eq_some_iff, reduceCtorEq] at h
    case dateTime => cases h; rfl
    case string => obtain ⟨_, -, rfl⟩ := h; rfl
  case span =>
    cases literal <;> simp only [convert?, Option.map_eq_some_iff, reduceCtorEq] at h
    case span => cases h; rfl
    case string => obtain ⟨_, -, rfl⟩ := h; rfl
  case uuid =>
    cases literal <;> simp only [convert?, Option.map_eq_some_iff, reduceCtorEq] at h
    case uuid => cases h; rfl
    case string => obtain ⟨_, -, rfl⟩ := h; rfl
  case int32 =>
    obtain ⟨i, hi, rfl⟩ := Option.map_eq_some_iff.1 h
    exact (Option.filter_eq_some_iff.1 hi).2
  all_goals
    obtain ⟨_, -, rfl⟩ := Option.map_eq_some_iff.1 h
    rfl

theorem holds_of_convert (ht : t.isExact = true) {literal : Value}
    (h : t.convert literal = .ok w) (some : w ≠ .null) : t.holds w = true := by
  rw [convert] at h
  split at h
  next => exact absurd (Except.ok.inj h).symm some
  next =>
    split at h
    next u hu =>
      cases h
      exact holds_of_convert? ht hu
    next => cases h

/-- The values of an exact type are of one kind. -/
theorem alike_of_holds (ht : t.isExact = true) (hv : t.holds v = true) (hw : t.holds w = true) :
    Value.Alike v w := by
  cases t <;> try cases ht
  all_goals
    cases v <;> try cases hv
    cases w <;> try cases hw
    constructor

end FieldType

namespace Value

/-- Values of one kind are placed by the natural order, nulls apart. -/
theorem Alike.compare?_eq {v w : Value} (h : Alike v w) (settled : v.isNull = false) :
    compare? v w = some (v.order w) := by
  cases h <;> first | rfl | cases settled

theorem Alike.isNull_eq {v w : Value} (h : Alike v w) : v.isNull = w.isNull := by
  cases h <;> rfl

end Value

theorem FieldType.isNull_of_holds {t : FieldType} (ht : t.isExact = true) {v : Value}
    (h : t.holds v = true) : v.isNull = false := by
  cases t <;> try cases ht
  all_goals
    cases v <;> try cases h
    rfl

theorem FieldType.isText_of_holds {t : FieldType} (ht : t.isExact = true) {text : String}
    (h : t.holds (.string text) = true) : t.isText = true := by
  cases t <;> first | rfl | (simp [isExact, holds] at ht h)

/-! ### Strategies -/

/-- Whether a strategy decides nulls by the operator. The three-way comparison of values that are
not null takes a null for an outcome of its own. -/
def Strategy.knowsNulls : Strategy → Bool
  | .compareTo _ => false
  | _ => true

/-- A test of equality decides the operators of equality as a comparison does. -/
theorem Comparator.admits_asOutcome {op : Comparator} (equality : op.isEquality = true)
    (o : Ordering) : op.admits (Predicate.asOutcome (o == .eq)) = op.admits o := by
  cases op <;> cases equality <;> cases o <;> rfl

namespace Predicate

variable {v w : Value}

/-- Values of one kind are compared by their order, for equality and for all else. -/
theorem satisfies_native (alike : Value.Alike v w) (some : v.isNull = false) (a : Accessor)
    (op : Comparator) : satisfies a op v w .native = .ok (op.admits (v.order w)) := by
  rw [satisfies, nullAware, ← alike.isNull_eq, some]
  cases hop : op.isEquality with
  | true =>
    simp only [nativeOutcome, hop, if_true, alike.equal_eq]
    rw [Comparator.admits_asOutcome hop]
  | false => simp only [nativeOutcome, hop, Bool.false_eq_true, if_false, alike.compare?_eq some]

theorem nullAware_ne (cmp : Value → Value → Option Ordering) (v w : Value) :
    nullAware cmp .ne v w = !nullAware cmp .eq v w := by
  rw [nullAware, nullAware]
  cases v.isNull <;> cases w.isNull <;> try rfl
  cases cmp v w with
  | none => rfl
  | some o => cases o <;> rfl

/-- By a strategy that knows nulls, "<>" decides against "=". -/
theorem satisfies_ne {strategy : Strategy} (known : strategy.knowsNulls = true) (a : Accessor)
    (v w : Value) :
    satisfies a .ne v w strategy = (satisfies a .eq v w strategy).map (!·) := by
  have turned (o : Ordering) : Comparator.ne.admits o = !Comparator.eq.admits o := by
    cases o <;> rfl
  cases strategy with
  | native | underlying | equalityOperator | operator =>
    exact congrArg Except.ok (nullAware_ne _ v w)
  | equals => rfl
  | compareTo => cases known
  | staticCompare | untyped => exact congrArg Except.ok (turned _)

end Predicate

namespace Clause

variable {s : Settings} {a : Accessor} {record value v w : Value}

theorem folded_type (s : Settings) (a : Accessor) : (folded s a).type = a.type := by
  rw [folded]
  split
  next fold =>
    have text : a.type = .string := by
      have := (Bool.and_eq_true_iff.1 fold).2
      cases htype : a.type <;> rw [htype] at this <;> first | rfl | cases this
    rw [text, Accessor.addLower]
    split <;> rfl
  next => rfl

/-- The accessor folds the case of what it reads as the literal is folded. -/
theorem read_folded (ht : a.type.isExact = true) (hv : a.type.holds v = true)
    (h : a.read record = .ok v) : (folded s a).read record = .ok (foldLiteral s v) := by
  rw [folded]
  cases text : a.type.isText with
  | true =>
    have htype : a.type = .string := by
      cases htype : a.type <;> rw [htype] at text <;> first | rfl | cases text
    rw [htype] at hv
    cases v <;> cases hv
    rw [foldLiteral, fold, Bool.and_true]
    split
    · exact Accessor.read_addLower h
    · exact h
  | false =>
    have kept : foldLiteral s v = v := by
      cases v with
      | string => rw [FieldType.isText_of_holds ht hv] at text; cases text
      | _ => rfl
    rw [kept, Bool.and_false]
    exact h

theorem holds_foldLiteral {t : FieldType} (ht : t.isExact = true) (h : t.holds v = true) :
    t.holds (foldLiteral s v) = true := by
  cases t <;> try cases ht
  all_goals
    cases v <;> try cases h
    first | rfl | exact h

/-- A token has no case to fold. -/
theorem lowerCase_token (op : Comparator) : Text.lowerCase op.token = op.token := by
  cases op <;> decide +kernel

theorem textTest?_token (op : Comparator) : textTest? op.token = none := by cases op <;> rfl

theorem compile_token (op : Comparator) : compile s a op.token value
    = ofPrepared s (folded s a) op.token value := by
  rw [compile, lowerCase_token, prepare_of_comparison s (textTest?_token op)]

theorem compile_of_dynamic (ht : a.type.isDynamic = true) (op : Comparator) :
    compile s a op.token value
      = .ok (.compare (folded s a) op value (.untyped s.stringToLower)) := by
  rw [compile_token, ofPrepared, textTest?_token]
  simp only [op.ofToken?_token, folded_type, ht, if_true]

theorem compile_of_convert (ht : a.type.isDynamic = false) (h : a.type.convert value = .ok w)
    (op : Comparator) : compile s a op.token value = compareTyped s (folded s a) op w := by
  rw [compile_token, ofPrepared, textTest?_token]
  simp only [op.ofToken?_token, folded_type, ht, h, Bool.false_eq_true, if_false]

/-- An exact type asks for a strategy that decides by the order of values. -/
theorem exists_strategy (ht : a.type.isExact = true) (hv : a.type.holds v = true)
    (hw : a.type.holds w = true) (op : Comparator) :
    ∃ strategy, strategy? s a op w = .ok (some strategy)
      ∧ Predicate.satisfies a op v w strategy = .ok (op.admits (v.order w)) := by
  have alike := FieldType.alike_of_holds ht hv hw
  have hnull := FieldType.isNull_of_holds ht hv
  have natural : FieldType.naturalOrder v w = v.order w := by
    rw [FieldType.naturalOrder, alike.compare?_eq hnull, Option.getD_some]
  have native := Predicate.satisfies_native alike hnull a op
  have comparing : Predicate.satisfies a op v w (.compareTo FieldType.naturalOrder)
      = .ok (op.admits (v.order w)) := by
    rw [Predicate.satisfies, hnull, natural]
    rfl
  have placing (text : a.type = .string) :
      Predicate.satisfies a op v w (.staticCompare FieldType.textOrder)
        = .ok (op.admits (v.order w)) := by
    rw [text] at hv hw
    cases v <;> cases hv
    cases w <;> cases hw
    exact congrArg (fun o => Except.ok (op.admits o)) natural
  have given : w.isNull = false := FieldType.isNull_of_holds ht hw
  rw [strategy?]
  cases hop : op.isEquality with
  | true =>
    cases htype : a.type with
    | enum _ => exact ⟨.underlying, rfl, native⟩
    | object _ | custom _ | dynamic | float32 | float64 => rw [htype] at ht; cases ht
    | _ => exact ⟨.native, rfl, native⟩
  | false =>
    cases htype : a.type with
    | enum _ => exact ⟨.underlying, rfl, native⟩
    | string => exact ⟨.staticCompare FieldType.textOrder, rfl, placing htype⟩
    | bool | uuid =>
      refine ⟨.compareTo FieldType.naturalOrder, ?_, comparing⟩
      simp only [FieldType.ordering, given, Bool.false_eq_true, if_false]
    | object _ | custom _ | dynamic | float32 | float64 => rw [htype] at ht; cases ht
    | _ => exact ⟨.native, rfl, native⟩

/-- A comparison of a member of an exact type decides by the place of its value and the literal,
both in folded case. -/
theorem compile_typed (ht : a.type.isExact = true) (hw : a.type.convert value = .ok w)
    (given : w ≠ .null) (hread : a.read record = .ok v) (hv : a.type.holds v = true)
    (op : Comparator) : ∃ p, compile s a op.token value = .ok p
      ∧ p.evaluate record = .ok (op.admits ((foldLiteral s v).order (foldLiteral s w))) := by
  have holds := FieldType.holds_of_convert ht hw given
  have htype := folded_type s a
  obtain ⟨strategy, hstrategy, decides⟩ := exists_strategy (s := s) (a := folded s a)
    (v := foldLiteral s v) (w := foldLiteral s w) (by rw [htype, ht])
    (by rw [htype, holds_foldLiteral ht hv]) (by rw [htype, holds_foldLiteral ht holds]) op
  refine ⟨.compare (folded s a) op (foldLiteral s w) strategy, ?_, ?_⟩
  · rw [compile_of_convert (FieldType.isDynamic_of_isExact ht) hw, compareTyped_eq,
      FieldType.isNull_of_holds ht holds, compareFolded, hstrategy]
    rfl
  · rw [Predicate.evaluate, read_folded ht hv hread]
    exact decides

/-- A comparison of a dynamic member decides by the place of its value and the literal. -/
theorem compile_dynamic (ht : a.type.isDynamic = true) (hread : a.read record = .ok v)
    (op : Comparator) : ∃ p, compile s a op.token value = .ok p
      ∧ p.evaluate record = .ok (op.admits (untypedOrder s.stringToLower v value)) := by
  have kept : folded s a = a := by
    have noText : a.type.isText = false := by
      cases htype : a.type <;> rw [htype] at ht <;> first | rfl | cases ht
    rw [folded, noText, Bool.and_false]
    rfl
  refine ⟨_, compile_of_dynamic ht op, ?_⟩
  rw [Predicate.evaluate, kept, hread]
  rfl

/-- The operators of equality ask for one strategy that knows nulls, or for one that is lacking. -/
theorem strategy?_equality (s : Settings) (a : Accessor) (w : Value) :
    (∃ e, strategy? s a .eq w = .error e) ∨ ∃ strategy, strategy.knowsNulls = true
      ∧ strategy? s a .eq w = .ok (some strategy) ∧ strategy? s a .ne w = .ok (some strategy) := by
  simp only [strategy?, Comparator.isEquality, if_true]
  cases a.type.equality with
  | native => cases a.type <;> exact .inr ⟨_, rfl, rfl, rfl⟩
  | operator eq => exact .inr ⟨_, rfl, rfl, rfl⟩
  | none =>
    cases s.supportsEquals with
    | true => exact .inr ⟨_, rfl, rfl, rfl⟩
    | false => exact .inl ⟨_, rfl⟩

/-- By "<>" a literal of the type is compared as by "=", with the outcome turned. -/
theorem compile_ne (hw : a.type.convert value = .ok w) {p : Predicate}
    (hp : compile s a "=" value = .ok p) : ∃ q, compile s a "<>" value = .ok q
      ∧ ∀ record, q.evaluate record = (p.evaluate record).map (!·) := by
  have turned {strategy : Strategy} (known : strategy.knowsNulls = true) (b : Accessor) (l : Value)
      (record : Value) : Predicate.evaluate record (.compare b .ne l strategy)
        = (Predicate.evaluate record (.compare b .eq l strategy)).map (!·) := by
    rw [Predicate.evaluate, Predicate.evaluate]
    cases b.read record with
    | error e => rfl
    | ok v => exact Predicate.satisfies_ne known b v l
  cases dynamic : a.type.isDynamic with
  | true =>
    cases (compile_of_dynamic dynamic .eq).symm.trans hp
    exact ⟨_, compile_of_dynamic dynamic .ne, turned rfl _ _⟩
  | false =>
    have hp := (compile_of_convert dynamic hw .eq).symm.trans hp
    have hq := compile_of_convert (s := s) dynamic hw .ne
    simp only [compareTyped_eq, Comparator.isEquality, Bool.not_true, Bool.and_false,
      Bool.false_eq_true, if_false, compareFolded] at hp hq
    rcases strategy?_equality s (folded s a) (foldLiteral s w) with
      ⟨e, lacks⟩ | ⟨strategy, known, heq, hne⟩
    · rw [lacks] at hp
      cases hp
    · rw [heq] at hp
      rw [hne] at hq
      cases hp
      exact ⟨_, hq, turned known _ _⟩

end Clause

namespace Filter

variable {s : Settings} {shape : Shape} {path : String} {a : Accessor} {literal : Value}

/-- A comparison as a filter is the clause of its accessor. -/
theorem compile_binary (ha : Accessor.ofPath shape s.guardNulls path = .ok a) (op : Comparator) :
    compile s shape (.binary path (some op.token) literal)
      = Clause.compile s a op.token literal := by
  rw [compile, compileWith, Option.map_some, Option.getD_some, Clause.lowerCase_token,
    compileClause, ha]

/-- All six comparisons of a member that has a value follow one outcome. -/
theorem comparisons_follow (ha : Accessor.ofPath shape s.guardNulls path = .ok a)
    (ht : a.type.isExact = true ∨ a.type.isDynamic = true) {w : Value}
    (hw : a.type.convert literal = .ok w) (given : w ≠ .null) {record v : Value}
    (conforms : shape.conforms record = true) (hread : a.read record = .ok v)
    (present : v ≠ .null) :
    ∃ o : Ordering, ∀ op : Comparator, ∃ p,
      compile s shape (.binary path (some op.token) literal) = .ok p
        ∧ p.evaluate record = .ok (op.admits o) := by
  simp only [compile_binary ha]
  rcases ht with exact | dynamic
  · have admits := ((Accessor.ofPath_expects ha conforms).of_read_eq_ok hread).1
    exact ⟨_, Clause.compile_typed exact hw given hread (admits.resolve_left present)⟩
  · exact ⟨_, Clause.compile_dynamic dynamic hread⟩

/-- The operators of comparisons are coherent. Where a member of an exact type or of any kind has a
value, and the literal has one in its type, exactly one of "<", "=" and ">" holds, "<=" holds where
"<" or "=" does, and ">=" where ">" or "=" does. For members of all types, a literal that has a
counterpart and a record on which "=" is decided, "<>" decides the opposite. -/
theorem operators_coherent (ha : Accessor.ofPath shape s.guardNulls path = .ok a) {w : Value}
    (hw : a.type.convert literal = .ok w) :
    (a.type.isExact = true ∨ a.type.isDynamic = true → w ≠ .null →
      ∀ record v, shape.conforms record = true → a.read record = .ok v → v ≠ .null →
        ∃ holds : Comparator → Bool,
          (∀ op, ∃ p, compile s shape (.binary path (some op.token) literal) = .ok p
            ∧ p.evaluate record = .ok (holds op))
          ∧ (holds .lt).toNat + (holds .eq).toNat + (holds .gt).toNat = 1
          ∧ holds .le = (holds .lt || holds .eq)
          ∧ holds .ge = (holds .gt || holds .eq))
    ∧ ∀ p, compile s shape (.binary path (some "=") literal) = .ok p →
        ∃ q, compile s shape (.binary path (some "<>") literal) = .ok q
          ∧ ∀ record b, p.evaluate record = .ok b → q.evaluate record = .ok (!b) := by
  refine ⟨fun ht given record v conforms hread present => ?_, fun p hp => ?_⟩
  · obtain ⟨o, follows⟩ := comparisons_follow ha ht hw given conforms hread present
    exact ⟨fun op => op.admits o, follows, by cases o <;> exact ⟨rfl, rfl, rfl⟩⟩
  · obtain ⟨q, hq, turned⟩ := Clause.compile_ne hw ((compile_binary ha .eq).symm.trans hp)
    refine ⟨q, (compile_binary ha .ne).trans hq, fun record b hb => ?_⟩
    rw [turned, hb]
    rfl

/-- A name in another letter case is the same in folded case, so that "<=" and ">=" hold of it, and
"<>" does not. -/
theorem operators_coherent_folded :
    let s := Settings.standard.folding true
    let shape := Shape.mk "Customer" [Field.plain "name" .string]
    let a : Accessor := {
      path := "name"
      steps := [.member "name" .string true]
      type := .string
      nullable := true
      guardsNulls := false }
    let record := Value.object [("name", .string "Ada")]
    Accessor.ofPath shape s.guardNulls "name" = .ok a
      ∧ a.type.convert (.string "ADA") = .ok (.string "ADA")
      ∧ shape.conforms record = true ∧ a.read record = .ok (.string "Ada")
      ∧ (∃ holds : Comparator → Bool,
          (∀ op, ∃ p, compile s shape (.binary "name" (some op.token) (.string "ADA")) = .ok p
            ∧ p.evaluate record = .ok (holds op))
          ∧ holds .eq = true ∧ holds .lt = false ∧ holds .le = true ∧ holds .ge = true)
      ∧ ∃ q, compile s shape (.binary "name" (some "<>") (.string "ADA")) = .ok q
          ∧ q.evaluate record = .ok false := by
  intro s shape a record
  have resolves : Accessor.ofPath shape s.guardNulls "name" = .ok a := by rfl
  have converts : a.type.convert (.string "ADA") = .ok (.string "ADA") := by rfl
  have conforms : shape.conforms record = true := by rfl
  have reads : a.read record = .ok (.string "Ada") := by rfl
  have equals : (compile s shape (.binary "name" (some "=") (.string "ADA"))).toOption.map
      (·.evaluate record) = some (.ok true) := by decide +kernel
  obtain ⟨one, turned⟩ := operators_coherent resolves converts
  obtain ⟨holds, decided, only, hle, hge⟩ :=
    one (.inl rfl) (by rintro ⟨⟩) record _ conforms reads (by rintro ⟨⟩)
  obtain ⟨p, hp, heq⟩ := decided .eq
  have hp : compile s shape (.binary "name" (some "=") (.string "ADA")) = .ok p := hp
  rw [hp] at equals
  have holdsEq : holds .eq = true :=
    Except.ok.inj (heq.symm.trans (Option.some.inj equals))
  have notLess : holds .lt = false := by
    rw [holdsEq] at only
    cases hlt : holds .lt with
    | false => rfl
    | true => rw [hlt, Bool.toNat_true] at only; omega
  obtain ⟨q, hq, hne⟩ := turned p hp
  exact ⟨resolves, converts, conforms, reads,
    ⟨holds, decided, holdsEq, notLess, by rw [hle, holdsEq, Bool.or_true],
      by rw [hge, holdsEq, Bool.or_true]⟩, q, hq, hne record true (Option.some.inj equals)⟩

end Filter

end DataGrid
