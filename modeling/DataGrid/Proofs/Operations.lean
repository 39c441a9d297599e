import DataGrid.Proofs.Filter.Recompiling
import DataGrid.Proofs.Loader.Outcomes
import DataGrid.Proofs.SumZeros.Alike

/-!
# Operations that share a resolver

An `Operation` is what a resolver is shared for: paths, clauses and criteria, summaries, rollups,
plans, flat rows and zeros. After any operations, whether they succeeded or not, each operation
gives what it gives with a resolver that remembers nothing (`Operation.run_as_fresh`). In
particular a plan that is made again to fold flat rows is the plan that was sent for them.
-/

namespace DataGrid

open Resolver Session

/-- An operation with a session and its resolver, by what it gives. -/
inductive Operation : Type → Type 1 where
  /-- resolves a path -/
  | resolve (path : String) : Operation (Except CompileError Accessor)
  /-- resolves a path and changes the accessor -/
  | resolveWith (path : String) (post : Accessor → Accessor) :
    Operation (Except CompileError Accessor)
  /-- compiles criteria, custom compilers included -/
  | compile (criteria : Criteria) : Operation (Except CompileError Predicate)
  /-- compiles the JSON form of criteria -/
  | compileJson (json : Json) : Operation (Except CompileError Predicate)
  /-- compiles a clause as usual -/
  | compileUsual (path operation : String) (value : Value) :
    Operation (Except CompileError Predicate)
  /-- attaches the session to a registry -/
  | attach (registry : Registry) : Operation Unit
  /-- changes the registry -/
  | update (change : Registry → Registry) : Operation (Except CompileError Unit)
  /-- resolves a summary -/
  | summary (s : Summary) : Operation (Except CompileError (Option Accessor))
  /-- makes the aggregates of summaries over records -/
  | rollup (total group : List Summary) : Operation (Except CompileError Rollup)
  /-- makes a plan -/
  | plan (levels : Nat) (total group : List Summary) : Operation (Except CompileError Projection)
  /-- folds flat rows -/
  | regroup (rows : List Row) (levels : Nat) (total group : List Summary) :
    Operation (Except RequestError Regrouped)
  /-- puts zeros in place of null sums, and gives the zeros that are known then -/
  | fillValues (zeros : List (String × Value)) (ss : List Summary) (vs : List Value) :
    Operation (SumZeros.Outcome (List Value) × List (String × Value))
  /-- puts zeros in place of null sums in groups, and gives the zeros that are known then -/
  | fillGroups {α : Type} (zeros : List (String × Value)) (ss : List Summary)
    (gs : List (Group α)) : Operation (SumZeros.Outcome (List (Group α)) × List (String × Value))

/-- What is given with zeros that are known, and the zeros that are known then. -/
def SumZeros.using {α : Type} (zeros : List (String × Value)) (fill : SumZeros → α × SumZeros)
    (r : Resolver) : (α × List (String × Value)) × Resolver :=
  (((fill ⟨r, zeros⟩).1, (fill ⟨r, zeros⟩).2.zeros), (fill ⟨r, zeros⟩).2.resolver)

namespace Operation

variable {α : Type}

/-- What the operation gives, and the session after it. -/
def run : {α : Type} → Operation α → Session → α × Session
  | _, resolve path => onResolver (Resolver.resolve path).run.run
  | _, resolveWith path post => onResolver (Resolver.resolveWith path post).run.run
  | _, compile criteria => (Session.compile criteria).run.run
  | _, compileJson json => (Session.compileJson json).run.run
  | _, compileUsual path operation value => (usual path operation value).run.run
  | _, attach registry => fun s => ((), { s with registry := some registry, snapshot := none })
  | _, update change => (Session.update change).run.run
  | _, summary s => onResolver s.resolve.run.run
  | _, rollup total group => onResolver (Rollup.overRecords total group).run.run
  | _, plan levels total group => onResolver (Projection.make levels total group).run.run
  | _, regroup rows levels total group =>
    onResolver (Projection.regroup rows levels total group).run.run
  | _, fillValues zeros ss vs => onResolver (SumZeros.using zeros (·.fillValues ss vs))
  | _, fillGroups zeros ss gs => onResolver (SumZeros.using zeros (·.fillGroups ss gs))

end Operation

namespace Session

/-- The session after operations, first to last. -/
def after (s : Session) (history : List (Σ α, Operation α)) : Session :=
  history.foldl (fun s op => (op.2.run s).2) s

end Session

/-- What becomes of the flat rows of a plan. -/
def Projection.fold (plan : Projection) (rows : List Row) (levels : Nat)
    (total group : List Summary) : Requesting Regrouped := do
  let data ← Requesting.reading (treeOf levels rows)
  let (data, totals) ← Requesting.reading (plan.rollup.run Row.read data)
  let (totalCount, totals) ← Requesting.reading (takeCount (totals.getD []))
  let (data, totals) ← Requesting.zeroSums total group data (some totals)
  return ⟨groupsOf? data, totals.filter (!·.isEmpty), totalCount⟩

/-! ### One operation -/

variable {settings : Settings} {shape : Shape} {guardNulls : Bool} {s s' : Session} {α : Type}

theorem SumZeros.respects_using {fill : SumZeros → α × SumZeros}
    (h : Respects (Alike shape guardNulls) fill) (zeros : List (String × Value)) :
    Respects (Both (Serves shape guardNulls)) (SumZeros.using zeros fill) := by
  rintro r r' ⟨serves, serves'⟩
  obtain ⟨a, d, d', hfill, hfill', alike⟩ := h ⟨r, zeros⟩ ⟨r', zeros⟩ ⟨serves, serves', rfl⟩
  refine ⟨(a, d.zeros), d.resolver, d'.resolver, ?_, ?_, alike.serves, alike.serves'⟩
  · rw [SumZeros.using, hfill]
  · rw [SumZeros.using, hfill', alike.zeros]

/-- No operation tells apart what is remembered of paths. -/
theorem Operation.respects_run (op : Operation α) :
    Respects (Session.Alike settings shape) op.run := by
  cases op with
  | resolve path => exact respects_onResolver (.of_computes (computes_resolve path))
  | resolveWith path post =>
    exact respects_onResolver (.of_computes (computes_resolveWith path post))
  | compile criteria => exact respects_compile criteria
  | compileJson json => exact respects_compileJson json
  | compileUsual path operation value => exact respects_usual path operation value
  | attach registry =>
    intro s s' hs
    exact ⟨(), _, _, rfl, rfl, hs.configured, hs.serves, hs.serves', by rw [hs.same]⟩
  | update change => exact respects_update change
  | summary s => exact respects_onResolver (.of_computes s.computes_resolve)
  | rollup total group =>
    exact respects_onResolver (.of_computes (Rollup.computes_overRecords total group))
  | plan levels total group =>
    exact respects_onResolver (.of_computes (Projection.computes_make levels total group))
  | regroup rows levels total group =>
    exact respects_onResolver (.of_computes (Projection.computes_regroup rows levels total group))
  | fillValues zeros ss vs =>
    exact respects_onResolver (SumZeros.respects_using (SumZeros.respects_fillValues ss vs) zeros)
  | fillGroups zeros ss gs =>
    exact respects_onResolver (SumZeros.respects_using (SumZeros.respects_fillGroups ss gs) zeros)

/-! ### Histories -/

namespace Session

theorem Alike.after (h : Alike settings shape s s') (history : List (Σ α, Operation α)) :
    Alike settings shape (s.after history) (s'.after history) := by
  induction history generalizing s s' with
  | nil => exact h
  | cons op rest ih => exact ih (op.2.respects_run.alike_next h)

theorem alike_fresh (settings : Settings) (shape : Shape) (registry : Option Registry) :
    Alike settings shape (fresh settings shape registry) (fresh settings shape registry) :=
  ⟨rfl, serves_fresh, serves_fresh, rfl⟩

theorem Alike.to_fresh (h : Alike settings shape s s) :
    Alike settings shape s { s with resolver := .fresh shape settings.guardNulls } :=
  ⟨h.configured, h.serves, serves_fresh, rfl⟩

end Session

/-- What becomes of flat rows does not depend on what is remembered either, if the summaries
resolve. -/
theorem Projection.respects_fold {total group : List Summary}
    (htotal : SumZeros.Resolve shape guardNulls total)
    (hgroup : SumZeros.Resolve shape guardNulls group) (plan : Projection) (rows : List Row)
    (levels : Nat) :
    Respects (Both (Serves shape guardNulls)) (plan.fold rows levels total group).run.run := by
  have reads {β : Type} (outcome : Except ReadError β) :
      Respects (Both (Serves shape guardNulls)) (Requesting.reading outcome).run.run :=
    .of_computes (Requesting.computes_reading outcome)
  refine (reads _).bind fun data => (reads _).bind fun result => (reads _).bind fun counted => ?_
  exact (Respects.of_computes (Requesting.computes_zeroSums htotal hgroup _ _)).bind
    fun filled => .pure _

/-- A plan that is made again is the one that was made, and flat rows are folded by it. -/
theorem Projection.regroup_of_make {total group : List Summary} {levels : Nat}
    {sent : Except CompileError Projection} {r r' : Resolver} (hr : r.Serves shape guardNulls)
    (hr' : r'.Serves shape guardNulls)
    (hsent : ((make levels total group).run.run r).1 = sent) (rows : List Row) :
    ((make levels total group).run.run r').1 = sent
      ∧ ((regroup rows levels total group).run.run r').1 = sent.mapError .compile >>= fun plan =>
        ((plan.fold rows levels total group).run.run (.fresh shape guardNulls)).1 := by
  have makes : Computes (Serves shape guardNulls) (make levels total group)
      (planned? shape guardNulls levels total group) := computes_make levels total group
  rw [makes.run_eq hr] at hsent
  rw [makes.run_eq hr', ← hsent]
  refine ⟨rfl, ?_⟩
  obtain ⟨made, serves⟩ := Requesting.computes_compiling makes r' hr'
  rcases run : (Requesting.compiling (make levels total group)).run.run r' with ⟨outcome, r''⟩
  rw [run] at made serves
  change ((Requesting.compiling (make levels total group) >>= fun plan =>
    plan.fold rows levels total group).run.run r').1 = _
  rw [← made]
  cases outcome with
  | error e => rw [run_bind_of_error run]; rfl
  | ok plan =>
    obtain ⟨htotal, hgroup, -⟩ := planned?_eq_ok.1 (Outcome.mapError_eq_ok.1 made.symm)
    rw [run_bind_of_ok run]
    exact (respects_fold htotal hgroup plan rows levels).same ⟨serves, serves_fresh⟩

/-- After any operations, each operation gives what it gives with a resolver that remembers nothing.
The plan that is made again for flat rows is the one that was sent, and they are folded by it. -/
theorem Operation.run_as_fresh (settings : Settings) (shape : Shape)
    (registry : Option Registry) (history : List (Σ α, Operation α)) :
    let s := (Session.fresh settings shape registry).after history
    (∀ (α : Type) (op : Operation α),
      (op.run s).1 = (op.run { s with resolver := .fresh shape settings.guardNulls }).1)
    ∧ ∀ levels total group between rows,
      let sent := ((plan levels total group).run s).1
      let later := ((plan levels total group).run s).2.after between
      ((Projection.make levels total group).run.run later.resolver).1 = sent
      ∧ ((regroup rows levels total group).run later).1 = sent.mapError .compile >>= fun plan =>
        ((plan.fold rows levels total group).run.run (.fresh shape settings.guardNulls)).1 := by
  intro s
  have alike : Alike settings shape s s := (alike_fresh settings shape registry).after history
  refine ⟨fun α op => op.respects_run.same alike.to_fresh, ?_⟩
  intro levels total group between rows sent later
  have alike' := ((plan levels total group).respects_run.alike_next alike).after between
  exact Projection.regroup_of_make alike.serves alike'.serves rfl rows

/-- A step that was appended for one caller does not reach the next. -/
example :
    let shape := Shape.mk "Visit" [.plain "size" .int32]
    let s := (Session.fresh .standard shape none).after
      [⟨_, .resolveWith "size" Accessor.forceText⟩]
    ((Operation.resolve "size").run s).1.toOption.map (·.steps.length) = some 1 := by
  rfl

end DataGrid
