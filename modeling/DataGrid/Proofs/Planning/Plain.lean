import DataGrid.Proofs.Loader.Outcomes
import DataGrid.Proofs.Summary

/-!
# Remote kinds in plans

A plan counts rows and averages in one way only. It does not tell a remote kind from the plain kind
that it stands for: with the same selectors the two resolve alike, have the same columns and are
computed the same, so that a request has one plan and one outcome of its flat rows with either
(`Projection.planOf_plain`, `Loader.grouped_plain`).
-/

namespace DataGrid

open Projection (columnsOf columnsFor flatKind planned planOf)

namespace SummaryKind

/-- The kind over records that a remote kind stands for. -/
def plain : SummaryKind → SummaryKind
  | remoteCount => count
  | remoteAvg => avg
  | kind => kind

@[simp] theorem readsSelector_plain (kind : SummaryKind) :
    kind.plain.readsSelector = kind.readsSelector := by cases kind <;> rfl

/-- A plain kind takes selectors of the same types. -/
@[simp] theorem admits_plain (kind : SummaryKind) (type : FieldType) :
    kind.plain.admits type = kind.admits type := by cases kind <;> rfl

@[simp] theorem flatKind_plain (kind : SummaryKind) : flatKind kind.plain = flatKind kind := by
  cases kind <;> rfl

/-- It asks a backend for the same columns. -/
@[simp] theorem columnsOf_plain (kind : SummaryKind) (selector : String) :
    columnsOf kind.plain selector = columnsOf kind selector := by cases kind <;> rfl

end SummaryKind

namespace Summary

/-- The summary of the plain kind over the same values. -/
def plain (s : Summary) : Summary := { s with kind := s.kind.plain }

variable {shape : Shape} {guardNulls : Bool} {s : Summary}

/-- A selector passes exactly if the kind takes its type. -/
theorem check_eq_ok {selector : String} {a : Accessor} {a? : Option Accessor} :
    s.check selector a = .ok a? ↔ s.kind.admits a.type = true ∧ some a = a? := by
  rw [check]
  split <;> simp_all

/-- A summary resolves to what that of the plain kind does. Only their errors name the kind. -/
theorem resolved_plain {a? : Option Accessor} :
    s.plain.resolved shape guardNulls = .ok a? ↔ s.resolved shape guardNulls = .ok a? := by
  have check {selector : String} {a : Accessor} :
      s.plain.check selector a = .ok a? ↔ s.check selector a = .ok a? := by
    rw [check_eq_ok, check_eq_ok]
    exact and_congr_left' (by rw [plain, SummaryKind.admits_plain])
  rw [resolved, resolved, plain, SummaryKind.readsSelector_plain]
  split
  · rfl
  · cases s.selector with
    | none => simp
    | some selector =>
      rw [Outcome.bind_eq_ok, Outcome.bind_eq_ok]
      exact exists_congr fun a => and_congr_right fun _ => check

theorem columnsFor_plain (s : Summary) : columnsFor s.plain = columnsFor s :=
  SummaryKind.columnsOf_plain s.kind _

/-- It has its nulls replaced by the same zeros. -/
theorem filled_plain (s : Summary) (v : Value) :
    SumZeros.filled shape guardNulls s.plain v = SumZeros.filled shape guardNulls s v := by
  obtain ⟨selector, kind⟩ := s
  cases kind <;> rfl

/-- Over records the plain kind gives the same value. -/
theorem valueOver_plain (s : Summary) (records : List Value) :
    s.plain.valueOver shape records = s.valueOver shape records := by
  obtain ⟨selector, kind⟩ := s
  cases kind <;> rfl

/-- A summary of integers, or a count. -/
def OverIntegers (shape : Shape) (s : Summary) : Prop :=
  s.kind.readsSelector = true → shape.PathIs FieldType.isInteger s.path

instance (shape : Shape) (s : Summary) : Decidable (s.OverIntegers shape) :=
  inferInstanceAs (Decidable (_ → Shape.PathIs _ _ _))

/-- With the plain kind it splits. -/
theorem OverIntegers.splits (h : s.OverIntegers shape) : s.plain.Splits shape := by
  obtain ⟨selector, kind⟩ := s
  cases kind with
  | sum | avg | remoteAvg => exact h rfl
  | min | max => exact fun a ha => FieldType.isExact_of_isInteger (h rfl a ha)
  | count | remoteCount => trivial

end Summary

namespace SumZeros

variable {shape : Shape} {guardNulls : Bool}

/-- The plain kinds resolve exactly if the kinds do. -/
theorem resolve_plain {ss : List Summary} :
    Resolve shape guardNulls (ss.map Summary.plain) ↔ Resolve shape guardNulls ss := by
  simp only [Resolve, List.forall_mem_map, Summary.resolved_plain]

theorem filledAll_plain (ss : List Summary) (vs : List Value) :
    filledAll shape guardNulls (ss.map Summary.plain) vs = filledAll shape guardNulls ss vs := by
  induction ss generalizing vs with
  | nil => rfl
  | cons s ss ih =>
    cases vs with
    | nil => rfl
    | cons v vs => rw [List.map_cons, filledAll, filledAll, ih, Summary.filled_plain]

end SumZeros

namespace Projection

theorem planned_plain (n : Nat) (ss : List Summary) :
    planned n (ss.map Summary.plain) = planned n ss := by
  induction ss generalizing n with
  | nil => rfl
  | cons s ss ih =>
    rw [List.map_cons, planned, planned, Summary.columnsFor_plain, ih, Summary.plain,
      SummaryKind.flatKind_plain]

/-- A request has one plan with remote kinds and with plain ones. -/
theorem planOf_plain (levels : Nat) (total group : List Summary) :
    planOf levels (total.map Summary.plain) (group.map Summary.plain)
      = planOf levels total group := by
  simp only [planOf, planned_plain, List.flatMap_map, Summary.columnsFor_plain]

variable {shape : Shape} {guardNulls : Bool} {total group : List Summary}

/-- Plain kinds have the same plan, since columns and places are theirs. -/
theorem planned?_plain (htotal : SumZeros.Resolve shape guardNulls total)
    (hgroup : SumZeros.Resolve shape guardNulls group) (levels : Nat) :
    planned? shape guardNulls levels (total.map Summary.plain) (group.map Summary.plain)
      = planned? shape guardNulls levels total group := by
  rw [planned?_eq_ok.2 ⟨htotal, hgroup, rfl⟩, planned?_eq_ok]
  exact ⟨SumZeros.resolve_plain.2 htotal, SumZeros.resolve_plain.2 hgroup, planOf_plain ..⟩

/-- So the same is made of flat rows. -/
theorem regrouped_plain (htotal : SumZeros.Resolve shape guardNulls total)
    (hgroup : SumZeros.Resolve shape guardNulls group) (rows : List Row) (levels : Nat) :
    regrouped shape guardNulls rows levels (total.map Summary.plain) (group.map Summary.plain)
      = regrouped shape guardNulls rows levels total group := by
  have filled (ss : List Summary) : SumZeros.filledAll shape guardNulls (ss.map Summary.plain)
      = SumZeros.filledAll shape guardNulls ss := funext (SumZeros.filledAll_plain ss)
  simp only [regrouped, planned?_plain htotal hgroup, filled]

end Projection

/-- A store groups for remote kinds as for plain ones. -/
theorem Loader.grouped_plain {store : Store} {s : Settings} {total group : List Summary}
    (htotal : SumZeros.Resolve store.shape s.guardNulls total)
    (hgroup : SumZeros.Resolve store.shape s.guardNulls group) (predicate : Predicate)
    (grouping : List Grouping) :
    grouped store predicate grouping (total.map Summary.plain) (group.map Summary.plain) s
      = grouped store predicate grouping total group s := by
  simp only [grouped, Projection.planned?_plain htotal hgroup,
    Projection.regrouped_plain htotal hgroup]

end DataGrid
