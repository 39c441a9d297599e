import DataGrid.Proofs.Resolving

/-!
# The compilers that decide clauses

Custom compilers act while they are asked: they compile criteria, and change the registry that they
stand in. `Watching` runs what a session runs and writes down every binary clause as it is reached,
a `Visit`. A watched run is the run itself (`Watching.Follows`), and all clauses in it are decided
by the compilers that the registry held when the first of them was reached
(`Session.act_decidedBy`).
-/

namespace DataGrid

/-- A binary clause that is reached. -/
structure Visit where
  /-- the levels of nesting that are left below -/
  levels : Nat
  /-- what the compiler keeps at that moment -/
  session : Session
  /-- the path -/
  path : String
  /-- the operator in lower case -/
  operation : String
  /-- the literal -/
  value : Value

/-! ### What decides a clause -/

namespace Session

/-- Compilers are asked in order, each in what the ones before left, until one does not decline. -/
inductive Asks (nested : Criteria → Filtering Predicate) (info : ClauseInfo) :
    Registry → Session → Except CompileError (Option Predicate) → Session → Prop where
  /-- none is left -/
  | exhausted (s : Session) : Asks nested info [] s (.ok none) s
  /-- the first declines, and the others are asked -/
  | declines {compiler : CustomCompiler} {rest : Registry} {s s' s'' : Session}
    {answer : Except CompileError (Option Predicate)}
    (here : (act nested (compiler info)).run.run s = (.ok none, s'))
    (next : Asks nested info rest s' answer s'') : Asks nested info (compiler :: rest) s answer s''
  /-- the first decides, and no other is asked -/
  | decides {compiler : CustomCompiler} {rest : Registry} {s s' : Session}
    {answer : Except CompileError (Option Predicate)}
    (here : (act nested (compiler info)).run.run s = (answer, s')) (decides : answer ≠ .ok none) :
    Asks nested info (compiler :: rest) s answer s'

end Session

namespace Visit

variable (settings : Settings) (shape : Shape)

/-- What becomes of the clause, and what the compiler keeps afterwards. -/
def run (visit : Visit) : Except CompileError Predicate × Session :=
  (Session.clause (Session.compileWithin visit.levels) visit.path visit.operation
    visit.value).run.run visit.session

/-- Compilers are asked for the clause from the moment that it is reached. -/
def Asks (visit : Visit) (compilers : Registry) (answer : Except CompileError (Option Predicate))
    (after : Session) : Prop :=
  Session.Asks (Session.compileWithin visit.levels)
    ⟨visit.path, visit.operation, visit.value, settings.stringToLower, shape⟩ compilers
    { visit.session with snapshot := some compilers } answer after

/-- The clause is decided by compilers: by the first that does not decline, and as usual if all
decline. -/
inductive DecidedBy (compilers : Registry) (visit : Visit) : Prop where
  /-- a compiler claims it -/
  | claimed {p : Predicate} {after : Session}
    (asks : visit.Asks settings shape compilers (.ok (some p)) after)
    (outcome : visit.run = (.ok p, after))
  /-- a compiler refuses it -/
  | refused {e : CompileError} {after : Session}
    (asks : visit.Asks settings shape compilers (.error e) after)
    (outcome : visit.run = (.error e, after))
  /-- all decline, and it is compiled as usual, which changes nothing but what is known of paths -/
  | declined {after : Session} {resolver : Resolver}
    (asks : visit.Asks settings shape compilers (.ok none) after)
    (outcome : visit.run
      = (Session.usual visit.path visit.operation visit.value).run.run after)
    (usual : (Session.usual visit.path visit.operation visit.value).run.run after
      = (Filter.compileClause settings shape visit.path visit.operation visit.value,
          { after with resolver := resolver }))

end Visit

/-! ### Watching a compiler -/

/-- Work of a compiler of criteria that writes down the clauses that it reaches, first to last. -/
abbrev Watching (α : Type) := ExceptT CompileError (StateM (Session × List Visit)) α

namespace Watching

variable {α β : Type}

/-- Work that reaches no clause. -/
def unseen (work : Filtering α) : Watching α :=
  ExceptT.mk fun w =>
    let (outcome, s) := work.run.run w.1
    (outcome, s, w.2)

/-- The outcome of work that may fail. -/
def observe (work : Watching α) : Watching (Except CompileError α) :=
  ExceptT.mk fun w =>
    let (outcome, w) := work.run.run w
    (.ok outcome, w)

/-- Writes down a clause. -/
def note (levels : Nat) (path operation : String) (value : Value) : Watching Unit :=
  modify fun w => (w.1, w.2 ++ [⟨levels, w.1, path, operation, value⟩])

/-- Acts by a script. -/
def act (nested : Criteria → Watching Predicate) : Script → Watching (Option Predicate)
  | .answer outcome => liftExcept outcome
  | .resolve path next => do
    act nested (next (← unseen (Session.observe (Session.resolving (Resolver.resolve path)))))
  | .compileUsual path operation value next => do
    act nested (next (← unseen (Session.observe (Session.usual path operation value))))
  | .compile criteria next => do act nested (next (← observe (nested criteria)))
  | .register compiler next => do
    unseen (Session.update (· ++ [compiler]))
    act nested next
  | .clear next => do
    unseen (Session.update fun _ => [])
    act nested next

/-- Asks compilers in order until one does not decline. -/
def consult (nested : Criteria → Watching Predicate) (info : ClauseInfo) :
    Registry → Watching (Option Predicate)
  | [] => return none
  | compiler :: rest => do
    match ← act nested (compiler info) with
    | some p => return some p
    | none => consult nested info rest

/-- Writes down a clause and compiles it. -/
def clause (levels : Nat) (nested : Criteria → Watching Predicate) (path operation : String)
    (value : Value) : Watching Predicate := do
  note levels path operation value
  let snapshot ← unseen Session.snapshotNow
  let s ← unseen get
  let info := ⟨path, operation, value, s.settings.stringToLower, s.resolver.shape⟩
  match ← consult nested info snapshot with
  | some p => return p
  | none => unseen (Session.usual path operation value)

/-- Compiles criteria with a number of levels left. -/
def compileWithin : Nat → Criteria → Watching Predicate
  | 0 => fun _ => throw .endlessNesting
  | levels + 1 => Filter.compileWith (clause levels (compileWithin levels))

end Watching

/-! ### What work does to a session -/

/-- A session for a shape and settings that is attached to a registry. -/
structure Session.Attached (settings : Settings) (shape : Shape) (s : Session) : Prop where
  /-- the settings -/
  configured : s.settings = settings
  /-- what is known of paths is right for the shape -/
  serves : s.resolver.Serves shape settings.guardNulls
  /-- there is a registry -/
  registry : s.registry.isSome = true

variable {settings : Settings} {shape : Shape} {s s' s'' : Session} {α β : Type}

/-- Compilers are the snapshot of a session, or what the registry holds at the first of the clauses
that it reaches. -/
def Session.Begins (s : Session) (visits : List Visit) (compilers : Registry) : Prop :=
  s.snapshot = some compilers ∨ s.snapshot = none
    ∧ ∃ first rest, visits = first :: rest ∧ first.session.registry = some compilers

/-- What happens between two moments of a session: it reaches clauses, and all of them are decided
by the same compilers, which are its snapshot from then on. -/
structure Session.Story (settings : Settings) (shape : Shape) (s : Session) (visits : List Visit)
    (s' : Session) : Prop where
  /-- the session stays attached -/
  attached : s'.Attached settings shape
  /-- no clause is reached, or compilers decide all of them -/
  kept : visits = [] ∧ s'.snapshot = s.snapshot ∨ ∃ compilers, s'.snapshot = some compilers
    ∧ s.Begins visits compilers ∧ ∀ visit ∈ visits, visit.DecidedBy settings shape compilers

namespace Session

/-- A session that does nothing reaches no clause. -/
theorem Story.refl (h : s.Attached settings shape) : Story settings shape s [] s :=
  ⟨h, .inl ⟨rfl, rfl⟩⟩

/-- What the first of some clauses determines, it determines for more. -/
theorem Begins.append {visits : List Visit} {compilers : Registry} (h : s.Begins visits compilers)
    (more : List Visit) : s.Begins (visits ++ more) compilers := by
  refine h.imp_right fun ⟨untaken, first, rest, hvisits, registry⟩ => ?_
  exact ⟨untaken, first, rest ++ more, by rw [hvisits, List.cons_append], registry⟩

/-- One story goes on where another ended. -/
theorem Story.trans {visits more : List Visit} (h : Story settings shape s visits s')
    (h' : Story settings shape s' more s'') : Story settings shape s (visits ++ more) s'' := by
  refine ⟨h'.attached, ?_⟩
  rcases h.kept with ⟨rfl, same⟩ | ⟨compilers, taken, begins, decided⟩
  · have kept := h'.kept
    simp only [Begins, same] at kept
    exact kept
  · rcases h'.kept with ⟨rfl, same⟩ | ⟨compilers', taken', begins', decided'⟩
    · rw [List.append_nil]
      exact .inr ⟨compilers, same.trans taken, begins, decided⟩
    · -- the snapshot is there already, so that the same compilers decide
      have same : compilers' = compilers := by
        rcases begins' with here | ⟨untaken, -⟩
        · exact Option.some.inj (here.symm.trans taken)
        · rw [taken] at untaken
          cases untaken
      subst same
      exact .inr ⟨_, taken', begins.append more, List.forall_mem_append.2 ⟨decided, decided'⟩⟩

/-- In a session that has a snapshot, its compilers decide. -/
theorem Story.of_taken {visits : List Visit} (h : Story settings shape s visits s')
    {compilers : Registry} (taken : s.snapshot = some compilers) :
    s'.snapshot = some compilers ∧ ∀ visit ∈ visits, visit.DecidedBy settings shape compilers := by
  rcases h.kept with ⟨rfl, same⟩ | ⟨compilers', taken', begins, decided⟩
  · exact ⟨same.trans taken, fun _ h => nomatch h⟩
  · rcases begins with here | ⟨untaken, -⟩
    · obtain rfl := Option.some.inj (here.symm.trans taken)
      exact ⟨taken', decided⟩
    · rw [taken] at untaken
      cases untaken

/-! ### Clauses as usual -/

/-- Resolving paths changes nothing in a session but what is known of paths. -/
theorem run_resolving {work : Resolving α} {outcome : Except CompileError α}
    (h : Computes (Resolver.Serves shape settings.guardNulls) work outcome)
    (attached : s.Attached settings shape) : ∃ resolver : Resolver,
      (resolving work).run.run s = (outcome, { s with resolver := resolver })
        ∧ resolver.Serves shape settings.guardNulls := by
  obtain ⟨hout, hserves⟩ := h s.resolver attached.serves
  exact ⟨(work.run.run s.resolver).2, Prod.ext hout rfl, hserves⟩

/-- Compiling a clause as usual asks no custom compiler: the outcome depends on the settings and the
shape only, and nothing but what is known of paths changes. -/
theorem run_usual (attached : s.Attached settings shape) (path operation : String) (value : Value) :
    ∃ resolver : Resolver, (usual path operation value).run.run s
        = (Filter.compileClause settings shape path operation value,
            { s with resolver := resolver })
      ∧ resolver.Serves shape settings.guardNulls := by
  have h := run_resolving (Filter.computes_compileClauseResolving path operation value) attached
  rw [← attached.configured] at h ⊢
  exact h

/-! ### Work that reaches no clause -/

/-- Work keeps a session attached, and its snapshot as it is. -/
def Keeps (settings : Settings) (shape : Shape) (work : Filtering α) : Prop :=
  ∀ s, s.Attached settings shape →
    (work.run.run s).2.Attached settings shape ∧ (work.run.run s).2.snapshot = s.snapshot

theorem Keeps.observe {work : Filtering α} (h : Keeps settings shape work) :
    Keeps settings shape (observe work) := h

/-- Resolving a path reaches no clause and changes no registry. -/
theorem keeps_resolve (path : String) :
    Keeps settings shape (resolving (Resolver.resolve path)) := by
  intro s attached
  obtain ⟨resolver, run, serves⟩ := run_resolving (Resolver.computes_resolve path) attached
  rw [run]
  exact ⟨⟨attached.configured, serves, attached.registry⟩, rfl⟩

/-- Nor does compiling a clause as usual. -/
theorem keeps_usual (path operation : String) (value : Value) :
    Keeps settings shape (usual path operation value) := by
  intro s attached
  obtain ⟨resolver, run, serves⟩ := run_usual attached path operation value
  rw [run]
  exact ⟨⟨attached.configured, serves, attached.registry⟩, rfl⟩

/-- A change of the registry reaches no clause. -/
theorem keeps_update (change : Registry → Registry) : Keeps settings shape (update change) :=
  fun _ attached => ⟨⟨attached.configured, attached.serves,
    Option.isSome_map.trans attached.registry⟩, rfl⟩

end Session

namespace Watching

/-- Watched work runs as the work does, and tells its story. -/
def Follows (settings : Settings) (shape : Shape) (watched : Watching α) (work : Filtering α) :
    Prop :=
  ∀ s visits, s.Attached settings shape → ∃ more,
    watched.run.run (s, visits) = ((work.run.run s).1, (work.run.run s).2, visits ++ more)
      ∧ Session.Story settings shape s more (work.run.run s).2

namespace Follows

theorem pure (a : α) : Follows settings shape (Pure.pure a) (Pure.pure a) :=
  fun s visits attached => ⟨[], by rw [List.append_nil]; rfl, .refl attached⟩

theorem throw (e : CompileError) : Follows settings shape (α := α) (MonadExcept.throw e)
    (MonadExcept.throw e) :=
  fun s visits attached => ⟨[], by rw [List.append_nil]; rfl, .refl attached⟩

theorem lift (outcome : Except CompileError α) :
    Follows settings shape (liftExcept outcome) (liftExcept outcome) := by
  cases outcome with
  | error e => exact throw e
  | ok a => exact pure a

/-- Watched work goes on as the work does. -/
theorem bind {watched : Watching α} {work : Filtering α} {f : α → Watching β}
    {g : α → Filtering β} (h : Follows settings shape watched work)
    (next : ∀ a, Follows settings shape (f a) (g a)) :
    Follows settings shape (watched >>= f) (work >>= g) := by
  intro s visits attached
  obtain ⟨more, run, story⟩ := h s visits attached
  rcases hwork : work.run.run s with ⟨result, s'⟩
  rw [hwork] at run story
  cases result with
  | error e =>
    rw [run_bind_of_error run, run_bind_of_error hwork]
    exact ⟨more, rfl, story⟩
  | ok a =>
    rw [run_bind_of_ok run, run_bind_of_ok hwork]
    obtain ⟨more', run', story'⟩ := next a s' (visits ++ more) story.attached
    exact ⟨more ++ more', by rw [run', List.append_assoc], story.trans story'⟩

theorem observe {watched : Watching α} {work : Filtering α}
    (h : Follows settings shape watched work) :
    Follows settings shape (Watching.observe watched) (Session.observe work) := by
  intro s visits attached
  obtain ⟨more, run, story⟩ := h s visits attached
  exact ⟨more, congrArg (fun p : Except CompileError α × Session × List Visit =>
    ((Except.ok p.1 : Except CompileError (Except CompileError α)), p.2)) run, story⟩

/-- Work that keeps the snapshot needs no watching. -/
theorem unseen {work : Filtering α} (keeps : Session.Keeps settings shape work) :
    Follows settings shape (Watching.unseen work) work := by
  intro s visits attached
  obtain ⟨attached', same⟩ := keeps s attached
  exact ⟨[], by rw [List.append_nil]; rfl, attached', .inl ⟨rfl, same⟩⟩

section Nested

variable {watched : Criteria → Watching Predicate} {nested : Criteria → Filtering Predicate}
variable (h : ∀ c, Follows settings shape (watched c) (nested c))
include h

/-- A compiler that is watched acts as it does unwatched, if nested criteria do. -/
theorem act (script : Script) :
    Follows settings shape (Watching.act watched script) (Session.act nested script) := by
  induction script with
  | answer outcome => exact lift outcome
  | resolve path next ih => exact (unseen (Session.keeps_resolve path).observe).bind ih
  | compileUsual path operation value next ih =>
    exact (unseen (Session.keeps_usual path operation value).observe).bind ih
  | compile criteria next ih => exact (h criteria).observe.bind ih
  | register compiler next _ ih => exact (unseen (Session.keeps_update _)).bind fun _ => ih
  | clear next ih => exact (unseen (Session.keeps_update _)).bind fun _ => ih

/-- So do compilers that are asked in order. -/
theorem consult (info : ClauseInfo) (compilers : Registry) :
    Follows settings shape (Watching.consult watched info compilers)
      (Session.consult nested info compilers) := by
  induction compilers with
  | nil => exact pure _
  | cons compiler rest ih =>
    refine (act h (compiler info)).bind fun answer => ?_
    cases answer with
    | some p => exact pure _
    | none => exact ih

end Nested

end Follows

end Watching

/-! ### Clauses -/

namespace Session

variable {nested : Criteria → Filtering Predicate}

/-- Asking compilers is asking each of them in turn. -/
theorem asks_of_consult {info : ClauseInfo} {compilers : Registry}
    {answer : Except CompileError (Option Predicate)}
    (h : (consult nested info compilers).run.run s = (answer, s')) :
    Asks nested info compilers s answer s' := by
  induction compilers generalizing s with
  | nil =>
    cases h
    exact .exhausted _
  | cons compiler rest ih =>
    rcases here : (act nested (compiler info)).run.run s with ⟨first, between⟩
    rw [consult] at h
    cases first with
    | error e =>
      rw [run_bind_of_error here] at h
      cases h
      exact .decides here (nomatch ·)
    | ok p? =>
      rw [run_bind_of_ok here] at h
      cases p? with
      | none => exact .declines here (ih h)
      | some p =>
        cases h
        exact .decides here (nomatch ·)

/-- The snapshot of an attached session is taken, if there is none yet. -/
theorem run_snapshotNow (attached : s.Attached settings shape) : ∃ compilers : Registry,
    snapshotNow.run.run s = (.ok compilers, { s with snapshot := some compilers })
      ∧ (s.snapshot = some compilers ∨ s.snapshot = none ∧ s.registry = some compilers) := by
  obtain ⟨registry, hregistry⟩ := Option.isSome_iff_exists.1 attached.registry
  have run : snapshotNow.run.run s = (.ok (s.snapshot.getD registry),
      { s with snapshot := some (s.snapshot.getD registry) }) := by
    have looked : (get : Filtering Session).run.run s = (.ok s, s) := rfl
    rw [snapshotNow, run_bind_of_ok looked]
    simp only [hregistry]
    rfl
  refine ⟨_, run, ?_⟩
  cases hsnapshot : s.snapshot with
  | none => exact .inr ⟨rfl, hregistry⟩
  | some compilers => exact .inl rfl

/-- What becomes of a clause when the compilers have answered: it is compiled as usual if all
decline. -/
def settled (path operation : String) (value : Value)
    (answer : Except CompileError (Option Predicate)) (after : Session) :
    Except CompileError Predicate × Session :=
  match answer with
  | .ok (some p) => (.ok p, after)
  | .ok none => (usual path operation value).run.run after
  | .error e => (.error e, after)

/-- A clause is settled by the answer of the compilers that are in force. -/
theorem run_clause {path operation : String} {value : Value} {compilers : Registry}
    {s₁ s₂ : Session} {answer : Except CompileError (Option Predicate)}
    (snapshot : snapshotNow.run.run s = (.ok compilers, s₁))
    (consulted : (consult nested ⟨path, operation, value, s₁.settings.stringToLower,
      s₁.resolver.shape⟩ compilers).run.run s₁ = (answer, s₂)) :
    (clause nested path operation value).run.run s = settled path operation value answer s₂ := by
  have looked : (get : Filtering Session).run.run s₁ = (.ok s₁, s₁) := rfl
  rw [clause, run_bind_of_ok snapshot, run_bind_of_ok looked]
  cases answer with
  | error e => exact run_bind_of_error consulted
  | ok p? =>
    rw [run_bind_of_ok consulted]
    cases p? <;> rfl

/-- Settling a clause leaves the compilers in force as they are. -/
theorem keeps_settled (attached : s.Attached settings shape) (path operation : String)
    (value : Value) (answer : Except CompileError (Option Predicate)) :
    (settled path operation value answer s).2.Attached settings shape
      ∧ (settled path operation value answer s).2.snapshot = s.snapshot := by
  rcases answer with e | _ | p
  · exact ⟨attached, rfl⟩
  · exact keeps_usual path operation value s attached
  · exact ⟨attached, rfl⟩

end Session

/-- A clause that is settled by the answer of compilers is decided by them. -/
theorem Visit.decidedBy_of_asks {visit : Visit} {compilers : Registry}
    {answer : Except CompileError (Option Predicate)} {after : Session}
    (attached : after.Attached settings shape)
    (asks : visit.Asks settings shape compilers answer after)
    (run : visit.run = Session.settled visit.path visit.operation visit.value answer after) :
    visit.DecidedBy settings shape compilers := by
  rcases answer with e | _ | p
  · exact .refused asks run
  · obtain ⟨resolver, usual, -⟩ :=
      Session.run_usual attached visit.path visit.operation visit.value
    exact .declined asks run usual
  · exact .claimed asks run

namespace Watching

/-- Work that reaches no clause leaves those that were written down. -/
theorem run_unseen {work : Filtering α} {outcome : Except CompileError α}
    (h : work.run.run s = (outcome, s')) (visits : List Visit) :
    (unseen work).run.run (s, visits) = (outcome, s', visits) :=
  congrArg (fun p : Except CompileError α × Session => (p.1, p.2, visits)) h

/-- A watched clause comes out as one that is not watched. -/
theorem run_clause {levels : Nat} {watched : Criteria → Watching Predicate}
    {path operation : String} {value : Value} {compilers : Registry} {s₁ s₂ : Session}
    {answer : Except CompileError (Option Predicate)} {visits visits' : List Visit}
    (snapshot : Session.snapshotNow.run.run s = (.ok compilers, s₁))
    (consulted : (consult watched ⟨path, operation, value, s₁.settings.stringToLower,
        s₁.resolver.shape⟩ compilers).run.run
          (s₁, visits ++ [⟨levels, s, path, operation, value⟩])
      = (answer, s₂, visits')) :
    (clause levels watched path operation value).run.run (s, visits)
      = ((Session.settled path operation value answer s₂).1,
          (Session.settled path operation value answer s₂).2, visits') := by
  have noted : (note levels path operation value).run.run (s, visits)
      = (.ok (), s, visits ++ [⟨levels, s, path, operation, value⟩]) := rfl
  have taken := run_unseen snapshot (visits ++ [⟨levels, s, path, operation, value⟩])
  have looked : (unseen (get : Filtering Session)).run.run
        (s₁, visits ++ [⟨levels, s, path, operation, value⟩])
      = (.ok s₁, s₁, visits ++ [⟨levels, s, path, operation, value⟩]) := rfl
  rw [clause, run_bind_of_ok noted, run_bind_of_ok taken, run_bind_of_ok looked]
  cases answer with
  | error e => exact run_bind_of_error consulted
  | ok p? =>
    rw [run_bind_of_ok consulted]
    cases p? <;> rfl

namespace Follows

/-- A clause is decided by the snapshot, which is taken of the registry if there is none yet. -/
theorem clause {levels : Nat} (h : ∀ c, Follows settings shape (Watching.compileWithin levels c)
      (Session.compileWithin levels c)) (path operation : String) (value : Value) :
    Follows settings shape
      (Watching.clause levels (Watching.compileWithin levels) path operation value)
      (Session.clause (Session.compileWithin levels) path operation value) := by
  intro s visits attached
  obtain ⟨compilers, snapshot, taken⟩ := Session.run_snapshotNow attached
  let visit : Visit := ⟨levels, s, path, operation, value⟩
  let info : ClauseInfo := ⟨path, operation, value, s.settings.stringToLower, s.resolver.shape⟩
  have same : info = ⟨path, operation, value, settings.stringToLower, shape⟩ := by
    rw [← attached.configured, ← attached.serves.2.1]
  obtain ⟨more, watched, story⟩ := consult h info compilers { s with snapshot := some compilers }
    (visits ++ [visit]) ⟨attached.configured, attached.serves, attached.registry⟩
  rcases consulted : (Session.consult (Session.compileWithin levels) info compilers).run.run
    { s with snapshot := some compilers } with ⟨answer, s₂⟩
  rw [consulted] at watched story
  have run := Session.run_clause snapshot consulted
  have asks := Session.asks_of_consult consulted
  rw [same] at asks
  obtain ⟨taken₂, decided⟩ := story.of_taken rfl
  obtain ⟨attached₃, taken₃⟩ :=
    Session.keeps_settled story.attached path operation value answer
  have here : visit.DecidedBy settings shape compilers :=
    Visit.decidedBy_of_asks story.attached asks run
  refine ⟨visit :: more, ?_, ?_⟩
  · rw [run, Watching.run_clause snapshot watched, List.append_assoc, List.singleton_append]
  · rw [run]
    refine ⟨attached₃, .inr ⟨compilers, taken₃.trans taken₂, ?_, ?_⟩⟩
    · -- the clause comes before those that the compilers reach
      exact taken.imp_right fun ⟨untaken, registry⟩ => ⟨untaken, visit, more, rfl, registry⟩
    · exact List.forall_mem_cons.2 ⟨here, decided⟩

/-- The rules by which criteria are walked keep that watched work follows the work. -/
theorem lockstep : Filter.Lockstep Watching Filtering (Follows settings shape) :=
  ⟨pure, throw, bind⟩

/-- Watched criteria follow criteria, on every level of nesting. -/
theorem compileWithin (levels : Nat) : ∀ c, Follows settings shape
    (Watching.compileWithin levels c) (Session.compileWithin levels c) := by
  induction levels with
  | zero => exact fun _ => throw _
  | succ levels ih => exact lockstep.compileWith (clause ih)

end Follows

end Watching

/-! ### All that a compiler is used for -/

namespace Session

/-- However a compiler is used, and whatever its custom compilers do while they are asked: all
clauses that it reaches are decided by the compilers that the registry held when it reached the
first of them. Compiling a clause as usual asks none of them. -/
theorem act_decidedBy (settings : Settings) (shape : Shape) (registry : Registry) (levels : Nat)
    (client : Script) :
    let start := fresh settings shape (some registry)
    let ended := (act (compileWithin levels) client).run.run start
    (∃ visits, (Watching.act (Watching.compileWithin levels) client).run.run (start, [])
        = (ended.1, ended.2, visits)
      ∧ (visits = [] ∨ ∃ first rest compilers, visits = first :: rest
          ∧ first.session.registry = some compilers
          ∧ ∀ visit ∈ visits, visit.DecidedBy settings shape compilers))
    ∧ ∀ s : Session, s.Attached settings shape → ∀ path operation value, ∃ resolver : Resolver,
        (usual path operation value).run.run s
          = (Filter.compileClause settings shape path operation value,
              { s with resolver := resolver }) := by
  intro start ended
  refine ⟨?_, fun s attached path operation value => ?_⟩
  · have attached : start.Attached settings shape := ⟨rfl, Resolver.serves_fresh, rfl⟩
    obtain ⟨visits, run, story⟩ :=
      Watching.Follows.act (Watching.Follows.compileWithin levels) client start [] attached
    refine ⟨visits, run, ?_⟩
    rcases story.kept with ⟨rfl, -⟩ | ⟨compilers, -, begins, decided⟩
    · exact .inl rfl
    · -- the compiler is fresh, so that its snapshot was not there before the first clause
      rcases begins with taken | ⟨-, first, rest, rfl, held⟩
      · cases taken
      · exact .inr ⟨first, rest, compilers, rfl, held, decided⟩
  · obtain ⟨resolver, run, -⟩ := run_usual attached path operation value
    exact ⟨resolver, run⟩

/-- A compiler that puts another in its own place while it is asked decides the next clause too, and
the other one is not asked. -/
theorem act_decidedBy_replaced :
    let shape := Shape.mk "Visit" [.plain "size" .int32]
    let newcomer : CustomCompiler := fun _ => .decline
    let leaver : CustomCompiler := fun _ => .clear (.register newcomer (.claim (.constant true)))
    let client : Script := .compile (.binary "size" (some "=") (.int 1)) fun _ =>
      .compile (.binary "size" (some "=") (.int 2)) fun _ => .decline
    let start := fresh .standard shape (some [leaver])
    let visits := ((Watching.act (Watching.compileWithin 1) client).run.run (start, [])).2.2
    ((act (compileWithin 1) client).run.run start).2.registry = some [newcomer]
      ∧ visits.length = 2 ∧ ∀ visit ∈ visits, visit.DecidedBy .standard shape [leaver] := by
  intro shape newcomer leaver client start visits
  have held : visits.head?.bind (·.session.registry) = some [leaver] := rfl
  refine ⟨rfl, rfl, ?_⟩
  obtain ⟨reached, run, answered⟩ := (act_decidedBy .standard shape [leaver] 1 client).1
  have same : visits = reached := congrArg (·.2.2) run
  rw [same] at held ⊢
  rcases answered with rfl | ⟨first, rest, compilers, rfl, registry, decided⟩
  · cases held
  · cases registry.symm.trans held
    exact decided

end Session

end DataGrid
