import DataGrid.Filter.Custom
import DataGrid.Proofs.Computes

/-!
# What is remembered of paths does not show

A resolver *serves* a shape and a setting if all that it remembers is right for them. Work that
resolves paths computes what it would with a resolver that remembers nothing: paths
(`computes_resolve`), clauses (`computes_compileClauseResolving`), and, in a session without custom
compilers, whole criteria (`Session.computes_compile`).
-/

namespace DataGrid

namespace Resolver

/-- A resolver for a shape and a setting that remembers nothing wrong. -/
def Serves (shape : Shape) (guardNulls : Bool) (r : Resolver) : Prop :=
  r.Sound ∧ r.shape = shape ∧ r.guardNulls = guardNulls

variable {shape : Shape} {guardNulls : Bool}

theorem serves_fresh : Serves shape guardNulls (fresh shape guardNulls) :=
  ⟨sound_fresh shape guardNulls, rfl, rfl⟩

theorem computes_resolve (path : String) :
    Computes (Serves shape guardNulls) (resolve path) (Accessor.ofPath shape guardNulls path) := by
  rintro r ⟨sound, rfl, rfl⟩
  exact ⟨lookup_answer sound path, lookup_sound sound path⟩

theorem computes_resolveWith (path : String) (post : Accessor → Accessor) :
    Computes (Serves shape guardNulls) (resolveWith path post)
      (Accessor.ofPath shape guardNulls path >>= fun a => .ok (post a)) :=
  (computes_resolve path).bind fun a _ => .pure (post a)

end Resolver

open Resolver

/-! ### Criteria -/

namespace Filter

/-- A relation of work of two kinds that results and errors are in, and work one after another. -/
structure Lockstep (m n : Type → Type) [Monad m] [MonadExceptOf CompileError m] [Monad n]
    [MonadExceptOf CompileError n] (Rel : {α : Type} → m α → n α → Prop) : Prop where
  /-- of a result -/
  pure {α : Type} (a : α) : Rel (Pure.pure a : m α) (Pure.pure a : n α)
  /-- of an error -/
  throw {α : Type} (e : CompileError) :
    Rel (MonadExcept.throw e : m α) (MonadExcept.throw e : n α)
  /-- of work and what follows it -/
  bind {α β : Type} {x : m α} {y : n α} {f : α → m β} {g : α → n β} (h : Rel x y)
    (next : ∀ a, Rel (f a) (g a)) : Rel (x >>= f) (y >>= g)

namespace Lockstep

variable {m n : Type → Type} [Monad m] [MonadExceptOf CompileError m] [Monad n]
variable [MonadExceptOf CompileError n] {Rel : {α : Type} → m α → n α → Prop}
variable {binary : String → String → Value → m Predicate}
variable {binary' : String → String → Value → n Predicate}

mutual

/-- Criteria are compiled in lockstep if their clauses are. -/
theorem compileWith (h : Lockstep m n Rel)
    (clause : ∀ path operation value, Rel (binary path operation value)
      (binary' path operation value)) :
    (c : Criteria) → Rel (Filter.compileWith binary c) (Filter.compileWith binary' c)
  | .binary path operation value => by
    rw [Filter.compileWith, Filter.compileWith]
    exact clause _ _ _
  | .negation inner => by
    rw [Filter.compileWith, Filter.compileWith]
    exact h.bind (compileWith h clause inner) fun _ => h.pure _
  | .group items => by
    rw [Filter.compileWith, Filter.compileWith]
    exact compileItems h clause items .start

theorem compileItems (h : Lockstep m n Rel)
    (clause : ∀ path operation value, Rel (binary path operation value)
      (binary' path operation value)) :
    (items : List CriteriaItem) → (j : Joining) →
      Rel (Filter.compileItems binary items j) (Filter.compileItems binary' items j)
  | [], j => by
    rw [Filter.compileItems, Filter.compileItems]
    cases j.finish with
    | error e => exact h.throw e
    | ok p => exact h.pure p
  | .connector token :: rest, j => by
    rw [Filter.compileItems, Filter.compileItems]
    exact compileItems h clause rest (j.connect token)
  | .clause c :: rest, j => by
    rw [Filter.compileItems, Filter.compileItems]
    have next := h.bind (compileWith h clause c) fun p => compileItems h clause rest (j.push p)
    cases j.disagrees with
    | true => exact h.bind (h.throw _) fun _ => next
    | false => exact next

end

end Lockstep

/-- Criteria compute what their clauses do. -/
theorem computes_compileWith {σ : Type} {inv : σ → Prop}
    {binary : String → String → Value → ExceptT CompileError (StateM σ) Predicate}
    {outcome : String → String → Value → Except CompileError Predicate}
    (h : ∀ path operation value,
      Computes inv (binary path operation value) (outcome path operation value)) (c : Criteria) :
    Computes inv (compileWith binary c) (compileWith outcome c) := by
  have lockstep : Lockstep (ExceptT CompileError (StateM σ)) (Except CompileError)
      (Computes inv) := ⟨.pure, .throw, fun h next => h.bind fun a _ => next a⟩
  exact lockstep.compileWith h c

/-- A clause is compiled over what its path resolves to, prepared for the operator; what is
remembered of the path is not prepared. -/
theorem compileClauseResolving_eq (s : Settings) (path operation : String) (value : Value) :
    compileClauseResolving s path operation value = (do
      let a ← resolveWith path (Clause.prepare s (Text.lowerCase operation))
      liftExcept (Clause.ofPrepared s a (Text.lowerCase operation) value)) := by
  simp only [compileClauseResolving, resolveWith, bind_assoc, pure_bind, Clause.compile]

theorem computes_compileClauseResolving {s : Settings} {shape : Shape} (path operation : String)
    (value : Value) :
    Computes (Serves shape s.guardNulls) (compileClauseResolving s path operation value)
      (compileClause s shape path operation value) := by
  have resolves : Computes (Serves shape s.guardNulls) (resolveWith path _) _ :=
    computes_resolveWith path (Clause.prepare s (Text.lowerCase operation))
  have h := resolves.bind fun a _ =>
    .lift (Clause.ofPrepared s a (Text.lowerCase operation) value)
  rw [compileClauseResolving_eq, compileClause]
  cases hpath : Accessor.ofPath shape s.guardNulls path <;> rw [hpath] at h <;> exact h

end Filter

/-! ### Sessions without custom compilers -/

namespace Session

/-- A session for a shape and settings that has no custom compilers. -/
def Plain (settings : Settings) (shape : Shape) (session : Session) : Prop :=
  session.settings = settings ∧ session.resolver.Serves shape settings.guardNulls
    ∧ session.registry.getD [] = [] ∧ session.snapshot.getD [] = []

variable {settings : Settings} {shape : Shape}

theorem plain_fresh {registry : Option Registry} (h : registry.getD [] = []) :
    Plain settings shape (fresh settings shape registry) :=
  ⟨rfl, serves_fresh, h, rfl⟩

theorem computes_resolving {α : Type} {work : Resolving α} {outcome : Except CompileError α}
    (h : Computes (Serves shape settings.guardNulls) work outcome) :
    Computes (Plain settings shape) (resolving work) outcome := by
  rintro session ⟨rfl, serves, registry, snapshot⟩
  obtain ⟨hout, hserves⟩ := h session.resolver serves
  exact ⟨hout, rfl, hserves, registry, snapshot⟩

theorem computes_snapshotNow : Computes (Plain settings shape) snapshotNow (.ok []) := by
  refine .get_bind fun session hplain => ?_
  obtain ⟨hsettings, serves, registry, snapshot⟩ := hplain
  cases hregistry : session.registry with
  | none => exact .pure []
  | some compilers =>
    rw [hregistry] at registry
    -- a snapshot that was taken earlier is of no compilers either
    have none : session.snapshot.getD compilers = [] := by
      cases hsnapshot : session.snapshot with
      | none => exact registry
      | some taken => simpa [hsnapshot] using snapshot
    simp only [none]
    exact fun _ _ => ⟨rfl, hsettings, serves, registry, rfl⟩

theorem computes_usual (path operation : String) (value : Value) :
    Computes (Plain settings shape) (usual path operation value)
      (Filter.compileClause settings shape path operation value) := by
  refine .get_bind fun session hplain => ?_
  rw [hplain.1]
  exact computes_resolving (Filter.computes_compileClauseResolving path operation value)

theorem computes_clause (nested : Criteria → Filtering Predicate) (path operation : String)
    (value : Value) :
    Computes (Plain settings shape) (clause nested path operation value)
      (Filter.compileClause settings shape path operation value) := by
  refine computes_snapshotNow.bind (g := fun _ =>
    Filter.compileClause settings shape path operation value) fun _ hnone => ?_
  cases hnone
  exact .get_bind fun _ _ => computes_usual path operation value

/-- Without custom compilers a session compiles criteria clause by clause. -/
theorem computes_compile (c : Criteria) :
    Computes (Plain settings shape) (compile c) (Filter.compile settings shape c) :=
  Filter.computes_compileWith (computes_clause _) c

end Session

end DataGrid
