import DataGrid.Proofs.Resolving
import DataGrid.Proofs.Respects

/-!
# Compilers that are used again

A compiler of criteria remembers paths from one use to the next. Two sessions that differ in nothing
else, and remember nothing wrong, give the same predicates and errors
(`Session.respects_compile`), custom compilers included: these resolve paths and compile criteria in
the session while they are asked, and change the registry, but see of the memory only what a path
resolves to.
-/

namespace DataGrid

open Resolver

namespace Session

variable {settings : Settings} {shape : Shape} {α : Type}

/-- Sessions for a shape and settings that differ in nothing but what is remembered of paths. -/
structure Alike (settings : Settings) (shape : Shape) (s s' : Session) : Prop where
  /-- the settings -/
  configured : s.settings = settings
  /-- what the one remembers is right -/
  serves : s.resolver.Serves shape settings.guardNulls
  /-- what the other remembers is right -/
  serves' : s'.resolver.Serves shape settings.guardNulls
  /-- all else is the same -/
  same : s' = { s with resolver := s'.resolver }

/-- Steps of a resolver, in a session. -/
def onResolver (step : Resolver → α × Resolver) (s : Session) : α × Session :=
  ((step s.resolver).1, { s with resolver := (step s.resolver).2 })

/-- Steps that take a right resolver for another do so in a session. -/
theorem respects_onResolver {step : Resolver → α × Resolver}
    (h : Respects (Both (Serves shape settings.guardNulls)) step) :
    Respects (Alike settings shape) (onResolver step) := by
  intro s s' hs
  obtain ⟨a, r, r', hstep, hstep', serves, serves'⟩ := h _ _ ⟨hs.serves, hs.serves'⟩
  refine ⟨a, { s with resolver := r }, { s' with resolver := r' }, ?_, ?_, hs.configured, serves,
    serves', ?_⟩
  · rw [onResolver, hstep]
  · rw [onResolver, hstep']
  · rw [hs.same]

/-- What right resolvers compute alike, sessions do. -/
theorem respects_resolving {work : Resolving α} {outcome : Except CompileError α}
    (h : Computes (Serves shape settings.guardNulls) work outcome) :
    Respects (Alike settings shape) (resolving work).run.run :=
  respects_onResolver (.of_computes h)

/-- An outcome that is looked at is the same, for it was the same before. -/
theorem respects_observe {work : Filtering α} (h : Respects (Alike settings shape) work.run.run) :
    Respects (Alike settings shape) (observe work).run.run := by
  intro s s' hs
  obtain ⟨outcome, t, t', hwork, hwork', ht⟩ := h s s' hs
  refine ⟨.ok outcome, t, t', ?_, ?_, ht⟩
  · exact congrArg (fun p : Except CompileError α × Session => (Except.ok p.1, p.2)) hwork
  · exact congrArg (fun p : Except CompileError α × Session => (Except.ok p.1, p.2)) hwork'

/-- A clause that is compiled as usual sees only what its path resolves to. -/
theorem respects_usual (path operation : String) (value : Value) :
    Respects (Alike settings shape) (usual path operation value).run.run := by
  refine .get_bind fun s s' hs => ⟨by rw [hs.same], ?_⟩
  rw [hs.configured]
  exact respects_resolving (Filter.computes_compileClauseResolving path operation value)

/-- Changes of the registry are the same, for alike sessions have one registry. -/
theorem respects_update (change : Registry → Registry) :
    Respects (Alike settings shape) (update change).run.run := by
  intro s s' hs
  refine ⟨.ok (), _, _, rfl, rfl, hs.configured, hs.serves, hs.serves', ?_⟩
  rw [hs.same]

/-- The compilers that are in force are the same too. -/
theorem respects_snapshotNow : Respects (Alike settings shape) snapshotNow.run.run := by
  have looked (s : Session) : (get : Filtering Session).run.run s = (.ok s, s) := rfl
  intro s s' hs
  have registry : s'.registry = s.registry := by rw [hs.same]
  have snapshot : s'.snapshot = s.snapshot := by rw [hs.same]
  rw [snapshotNow, run_bind_of_ok (looked s), run_bind_of_ok (looked s'), registry, snapshot]
  cases s.registry with
  | none => exact ⟨.ok [], s, s', rfl, rfl, hs⟩
  | some compilers =>
    refine ⟨.ok (s.snapshot.getD compilers), _, _, rfl, rfl, hs.configured, hs.serves,
      hs.serves', ?_⟩
    rw [hs.same]

section Nested

variable {nested : Criteria → Filtering Predicate}
variable (h : ∀ c, Respects (Alike settings shape) (nested c).run.run)
include h

/-- A compiler acts the same in alike sessions, whatever it resolves, compiles or changes. The
induction is on the script, and what compiles nested criteria is taken to respect likeness. -/
theorem respects_act (script : Script) :
    Respects (Alike settings shape) (act nested script).run.run := by
  induction script with
  | answer outcome => exact .lift outcome
  | resolve path next ih =>
    exact (respects_observe (respects_resolving (computes_resolve path))).bind ih
  | compileUsual path operation value next ih =>
    exact (respects_observe (respects_usual path operation value)).bind ih
  | compile criteria next ih => exact (respects_observe (h criteria)).bind ih
  | register compiler next _ ih => exact (respects_update _).bind fun _ => ih
  | clear next ih => exact (respects_update _).bind fun _ => ih

/-- So do compilers that are asked in order. -/
theorem respects_consult (info : ClauseInfo) (compilers : Registry) :
    Respects (Alike settings shape) (consult nested info compilers).run.run := by
  induction compilers with
  | nil => exact .pure _
  | cons compiler rest ih =>
    refine (respects_act h (compiler info)).bind fun answer => ?_
    cases answer with
    | some p => exact .pure _
    | none => exact ih

/-- A clause is decided the same, by a compiler or as usual. -/
theorem respects_clause (path operation : String) (value : Value) :
    Respects (Alike settings shape) (clause nested path operation value).run.run := by
  refine respects_snapshotNow.bind fun snapshot => .get_bind fun s s' hs => ⟨?_, ?_⟩
  · rw [hs.same, hs.serves.2.1, hs.serves'.2.1]
  · refine (respects_consult h _ snapshot).bind fun claim => ?_
    cases claim with
    | some p => exact .pure p
    | none => exact respects_usual path operation value

end Nested

/-- The rules by which criteria are walked keep that work respects likeness. -/
theorem respects_lockstep : Filter.Lockstep Filtering Filtering
    fun work work' => work = work' ∧ Respects (Alike settings shape) work.run.run where
  pure a := ⟨rfl, .pure a⟩
  throw e := ⟨rfl, .throw e⟩
  bind h next := ⟨by rw [h.1, funext fun a => (next a).1], h.2.bind fun a => (next a).2⟩

/-- By induction on the levels of nesting: each takes the level below as what compiles nested
criteria. -/
theorem respects_compileWithin (levels : Nat) (c : Criteria) :
    Respects (Alike settings shape) (compileWithin levels c).run.run := by
  induction levels generalizing c with
  | zero => exact .throw _
  | succ levels ih =>
    exact (respects_lockstep.compileWith (fun path operation value =>
      ⟨rfl, respects_clause ih path operation value⟩) c).2

/-- Sessions that differ in what is remembered of paths compile criteria alike. -/
theorem respects_compile (c : Criteria) :
    Respects (Alike settings shape) (compile c).run.run :=
  respects_compileWithin nestingLimit c

/-- So they do criteria in JSON, which are read without a session. -/
theorem respects_compileJson (j : Json) :
    Respects (Alike settings shape) (compileJson j).run.run :=
  (Respects.lift (Criteria.ofJson j)).bind respects_compile

end Session

end DataGrid
