import DataGrid.Loader
import DataGrid.Proofs.Leads

/-!
# Calls, failures and cancellation

A request makes its calls one after another, and each of them may fail or cancel the request.
`Protocol` says how the calls that were made go together with the outcome of the request, and
`Loader.serve_protocol` that every request to every backend keeps to it.

The invariant is `Untroubled`: every call so far has succeeded and cancelled nothing. All work on a
request keeps it or fails as `Halted` says. Only `Loading.call` has something to prove; everything
else follows the shape of the work.
-/

namespace DataGrid

/-! ### How a call goes -/

namespace Course

variable {ε α β : Type}

/-- The course with its result converted. -/
def map (f : α → β) : Course ε α → Course ε β
  | ends cancels outcome => ends cancels (outcome.map f)
  | waits cancels next => waits cancels (map f next)

/-- The call ends with an outcome, and nothing cancels the request before its last step, which
does or does not. -/
inductive Ends : Course ε α → Bool → Except ε α → Prop where
  /-- it ends at once -/
  | now (cancels : Bool) (outcome : Except ε α) : Ends (.ends cancels outcome) cancels outcome
  /-- it ends after it has waited -/
  | later {next : Course ε α} {cancels : Bool} {outcome : Except ε α}
      (h : Ends next cancels outcome) : Ends (.waits false next) cancels outcome

/-- The call waits when the request is cancelled. -/
inductive Suspends : Course ε α → Prop where
  /-- its first step cancels the request, and it waits -/
  | now (next : Course ε α) : Suspends (.waits true next)
  /-- it has waited before -/
  | later {next : Course ε α} (h : Suspends next) : Suspends (.waits false next)

/-- Why a call stops the request. -/
inductive Stops : Course ε α → LoadFailure ε → Prop where
  /-- it fails, whether its last step cancels the request or not -/
  | fails {course : Course ε α} {cancels : Bool} {e : ε} (h : Ends course cancels (.error e)) :
      Stops course (.backend e)
  /-- it waits when the request is cancelled -/
  | suspends {course : Course ε α} (h : Suspends course) : Stops course .cancelled
  /-- it succeeds, and its last step cancels the request -/
  | late {course : Course ε α} {a : α} (h : Ends course true (.ok a)) : Stops course .cancelled

open Loading

/-- A call that ends is as good as one that ends at once. -/
theorem Ends.follow_eq {course : Course ε α} {cancels : Bool} {outcome : Except ε α}
    (h : Ends course cancels outcome) : follow course = follow (.ends cancels outcome) := by
  induction h with
  | now cancels outcome => rfl
  | later _ ih => exact ih

/-- A call that waits when the request is cancelled gives nothing but that. -/
theorem Suspends.follow_eq {course : Course ε α} (h : Suspends course) :
    follow course = (.error .cancelled, true) := by
  induction h with
  | now next => rfl
  | later _ ih => exact ih

/-- A call that stops the request has the outcome that it stops it with. -/
theorem Stops.outcome_eq {course : Course ε α} {e : LoadFailure ε} (h : Stops course e) :
    (follow course).1 = .error e := by
  cases h with
  | fails h => rw [h.follow_eq, follow]
  | suspends h => rw [h.follow_eq]
  | late h => rw [h.follow_eq, follow]

/-- A call succeeds without cancelling the request, or stops it. -/
theorem ends_or_stops (course : Course ε α) :
    (∃ a, Ends course false (.ok a) ∧ follow course = (.ok a, false))
      ∨ ∃ e, Stops course e ∧ (follow course).1 = .error e := by
  induction course with
  | ends cancels outcome =>
    cases outcome with
    | error e => exact .inr ⟨_, .fails (.now cancels (.error e)), rfl⟩
    | ok a =>
      cases cancels with
      | true => exact .inr ⟨_, .late (.now true (.ok a)), rfl⟩
      | false => exact .inl ⟨a, .now false (.ok a), rfl⟩
  | waits cancels next ih =>
    cases cancels with
    | true => exact .inr ⟨_, .suspends (.now next), rfl⟩
    | false =>
      rcases ih with ⟨a, h, hfollow⟩ | ⟨e, h, hfollow⟩
      · exact .inl ⟨a, .later h, hfollow⟩
      · refine .inr ⟨e, ?_, hfollow⟩
        cases h with
        | fails h => exact .fails (.later h)
        | suspends h => exact .suspends (.later h)
        | late h => exact .late (.later h)

/-- A call that succeeds and cancels nothing does not stop the request. -/
theorem not_stops_of_ends {course : Course ε α} {a : α} {e : LoadFailure ε}
    (h : Ends course false (.ok a)) : ¬ Stops course e := by
  intro stops
  have same := stops.outcome_eq
  rw [h.follow_eq, follow] at same
  cases same

/-- Converting a result changes nothing in how the call ends. -/
theorem Ends.map {course : Course ε α} {cancels : Bool} {outcome : Except ε α} (f : α → β)
    (h : Ends course cancels outcome) : Ends (course.map f) cancels (outcome.map f) := by
  induction h with
  | now cancels outcome => exact .now cancels (outcome.map f)
  | later _ ih => exact .later ih

theorem Suspends.map {course : Course ε α} (f : α → β) (h : Suspends course) :
    Suspends (course.map f) := by
  induction h with
  | now next => exact .now (next.map f)
  | later _ ih => exact .later ih

/-- Nor does it change why a call stops the request. -/
theorem Stops.map {course : Course ε α} {e : LoadFailure ε} (f : α → β) (h : Stops course e) :
    Stops (course.map f) e := by
  cases h with
  | fails h => exact .fails (h.map f)
  | suspends h => exact .suspends (h.map f)
  | late h => exact .late (h.map f)

end Course

/-! ### The calls of a request -/

variable {ε α : Type}

namespace Backend

/-- How a call goes after others were made; what it gives is left out. -/
def course (b : Backend ε) (before : List BackendCall) : BackendCall → Course ε Unit
  | .load q => (b.load before q).map fun _ => ()
  | .count predicate => (b.count before predicate).map fun _ => ()
  | .flatGroups q => (b.project before q).map fun _ => ()

/-- A call succeeds, and the request is not cancelled when it does. -/
def Succeeds (b : Backend ε) (before : List BackendCall) (made : BackendCall) : Prop :=
  (b.course before made).Ends false (.ok ())

end Backend

/-- How the calls of a request, first to last, go together with its outcome. -/
structure Protocol (b : Backend ε) (cancelled : Bool) (calls : List BackendCall)
    (outcome : Except (LoadFailure ε) α) : Prop where
  /-- a call starts if nothing has cancelled the request and all earlier calls have succeeded -/
  starts : ∀ before made, before ++ [made] <+: calls → cancelled = false
    ∧ ∀ earlier made', earlier ++ [made'] <+: before → b.Succeeds earlier made'
  /-- a request succeeds after its last call, with which every call has succeeded -/
  succeeds : ∀ a, outcome = .ok a →
    calls ≠ [] ∧ ∀ before made, before ++ [made] <+: calls → b.Succeeds before made
  /-- a call that stops the request is the last, and why it does is the outcome -/
  stops : ∀ before made e, before ++ [made] <+: calls → (b.course before made).Stops e →
    calls = before ++ [made] ∧ outcome = .error e
  /-- an error of the backend is that of the last call -/
  backend : ∀ e, outcome = .error (.backend e) →
    ∃ before made, calls = before ++ [made] ∧ (b.course before made).Stops (.backend e)
  /-- a request is cancelled from the start, or its last call notices that it is -/
  cancelled : outcome = .error .cancelled → (cancelled = true ∧ calls = []) ∨
    ∃ before made, calls = before ++ [made] ∧ (b.course before made).Stops .cancelled

/-! ### What work on a request keeps -/

/-- At least some number of calls were made, all of them have succeeded, and the request is
cancelled only if it was from the start. -/
structure Untroubled (b : Backend ε) (cancelled : Bool) (made : Nat) (s : LoadState) : Prop where
  /-- nothing has cancelled the request since -/
  same : s.cancelled = cancelled
  /-- a request that is cancelled makes no calls -/
  running : s.calls ≠ [] → cancelled = false
  /-- every call has succeeded -/
  ended : ∀ before call, before ++ [call] <+: s.calls → b.Succeeds before call
  /-- so many calls were made at least -/
  enough : made ≤ s.calls.length

/-- How work on a request fails. -/
inductive Halted (b : Backend ε) (cancelled : Bool) : LoadFailure ε → LoadState → Prop where
  /-- the request does not compile -/
  | compile {s : LoadState} (e : CompileError) (h : Untroubled b cancelled 0 s) :
      Halted b cancelled (.compile e) s
  /-- a record or a row cannot be read -/
  | read {s : LoadState} (e : ReadError) (h : Untroubled b cancelled 0 s) :
      Halted b cancelled (.read e) s
  /-- it is cancelled from the start -/
  | refused {s : LoadState} (h : Untroubled b cancelled 0 s) (on : cancelled = true) :
      Halted b cancelled .cancelled s
  /-- its last call stops it -/
  | stopped {s s' : LoadState} {call : BackendCall} {e : LoadFailure ε}
      (h : Untroubled b cancelled 0 s) (off : cancelled = false)
      (last : s'.calls = s.calls ++ [call]) (stops : (b.course s.calls call).Stops e) :
      Halted b cancelled e s'

/-- Work on a request after at least some calls, which makes others so that there are enough. -/
def Obeys (b : Backend ε) (cancelled : Bool) (before after : Nat) (work : Loading ε α) : Prop :=
  Leads (Untroubled b cancelled before) work (fun _ => Untroubled b cancelled after)
    (Halted b cancelled)

section Rules

variable {b : Backend ε} {cancelled : Bool} {n m : Nat}

/-- Enough calls for more are enough for fewer. -/
theorem Untroubled.mono {s : LoadState} (h : Untroubled b cancelled n s) (le : m ≤ n) :
    Untroubled b cancelled m s :=
  ⟨h.same, h.running, h.ended, Nat.le_trans le h.enough⟩

/-- One more call succeeds. -/
theorem Untroubled.concat {s : LoadState} (h : Untroubled b cancelled n s) (off : cancelled = false)
    {call : BackendCall} (ended : b.Succeeds s.calls call) :
    Untroubled b cancelled (n + 1) { s with cancelled := false, calls := s.calls ++ [call] } where
  same := off.symm
  running _ := off
  ended before call' made := by
    rcases List.prefix_concat_iff.1 made with last | earlier
    · obtain ⟨rfl, rfl⟩ := List.append_inj' last rfl |>.imp_right List.singleton_inj.1
      exact ended
    · exact h.ended before call' earlier
  enough := by
    rw [List.length_append, List.length_singleton]
    exact Nat.succ_le_succ h.enough

namespace Obeys

theorem pure (a : α) : Obeys b cancelled n n (Pure.pure a : Loading ε α) :=
  Leads.pure fun _ hs => hs

/-- The calls of one piece of work are followed by those of the next. -/
theorem bind {β : Type} {work : Loading ε α} {f : α → Loading ε β} {k : Nat}
    (h : Obeys b cancelled n k work) (next : ∀ a, Obeys b cancelled k m (f a)) :
    Obeys b cancelled n m (work >>= f) :=
  Leads.bind h next

/-- Work that makes enough calls for more makes enough for fewer. -/
theorem fewer {work : Loading ε α} {k : Nat} (h : Obeys b cancelled n m work) (le : k ≤ m) :
    Obeys b cancelled n k work :=
  Leads.mono h (fun _ hs => hs) fun _ _ hs => hs.mono le

/-- What is compiled calls nothing, and an error of it is that of the request. -/
theorem compiling (outcome : Except CompileError α) :
    Obeys b cancelled n n (Loading.compiling outcome) := by
  intro s hs
  cases outcome with
  | ok a => exact .ok hs
  | error e => exact .error (.compile e (hs.mono n.zero_le))

/-- What is read calls nothing either. -/
theorem reading (outcome : Except ReadError α) :
    Obeys b cancelled n n (Loading.reading outcome) := by
  intro s hs
  cases outcome with
  | ok a => exact .ok hs
  | error e => exact .error (.read e (hs.mono n.zero_le))

/-- Nor does work of which both can go wrong. -/
theorem requesting (outcome : Except RequestError α) :
    Obeys b cancelled n n (Loading.requesting outcome) := by
  intro s hs
  cases outcome with
  | ok a => exact .ok hs
  | error e =>
    cases e with
    | compile e => exact .error (.compile e (hs.mono n.zero_le))
    | read e => exact .error (.read e (hs.mono n.zero_le))

/-- The step: a call is made only if the request is not cancelled, and then it succeeds or stops
the request. -/
theorem call {made : BackendCall} {answer : List BackendCall → Course ε α}
    (course : ∀ before, b.course before made = (answer before).map fun _ => ()) :
    Obeys b cancelled n (n + 1) (Loading.call made answer) := by
  intro s hs
  have run : (Loading.call made answer).run.run s
      = if s.cancelled then (.error .cancelled, s)
        else ((Loading.follow (answer s.calls)).1, { s with
          cancelled := (Loading.follow (answer s.calls)).2, calls := s.calls ++ [made] }) := rfl
  rw [run, hs.same]
  cases cancelled with
  | true => exact .error (.refused (hs.mono n.zero_le) rfl)
  | false =>
    rw [if_neg Bool.false_ne_true]
    rcases (answer s.calls).ends_or_stops with ⟨a, ends, hfollow⟩ | ⟨e, stops, hfollow⟩
    · rw [hfollow]
      refine .ok (hs.concat rfl ?_)
      rw [Backend.Succeeds, course]
      exact ends.map fun _ => ()
    · rw [hfollow]
      refine .error (.stopped (hs.mono n.zero_le) rfl rfl ?_)
      rw [course]
      exact stops.map fun _ => ()

end Obeys

end Rules

/-! ### Requests -/

namespace Loader

variable (l : Loader ε) {cancelled : Bool} {n : Nat}

/-- Compiling the filter calls nothing, though it may change the registry. -/
theorem obeys_predicateOf (o : LoadRequest) (s : Settings) :
    Obeys l.backend cancelled n n (l.predicateOf o s) := by
  cases hcriteria : o.criteria with
  | none =>
    rw [predicateOf, hcriteria]
    exact .pure _
  | some j =>
    intro state hs
    have run : ∀ ended,
        (Session.compileJson j).run.run (.fresh s l.backend.shape state.registry) = ended →
        (l.predicateOf o s).run.run state
          = (ended.1.mapError .compile, { state with registry := ended.2.registry }) := by
      rintro _ rfl
      rw [predicateOf, hcriteria]
      rfl
    rcases hrun : (Session.compileJson j).run.run (.fresh s l.backend.shape state.registry)
      with ⟨outcome, session⟩
    have after : Untroubled l.backend cancelled n { state with registry := session.registry } :=
      ⟨hs.same, hs.running, hs.ended, hs.enough⟩
    rw [run _ hrun]
    cases outcome with
    | ok predicate => exact .ok after
    | error e => exact .error (.compile e (after.mono n.zero_le))

/-- A page is one call. -/
theorem obeys_fetch (q : PageQuery) : Obeys l.backend cancelled n (n + 1) (l.fetch q) :=
  .call fun _ => rfl

/-- A count is one call. -/
theorem obeys_count (predicate : Predicate) :
    Obeys l.backend cancelled n (n + 1) (l.count predicate) :=
  .call fun _ => rfl

/-- Grouping by the backend is one call, since the flat rows are folded here. -/
theorem obeys_backendGrouping (predicate : Predicate) (grouping : List Grouping)
    (total group : List Summary) (s : Settings) :
    Obeys l.backend cancelled n (n + 1) (l.backendGrouping predicate grouping total group s) := by
  refine (Obeys.compiling _).bind fun plan => ?_
  refine (Obeys.call fun _ => rfl).bind fun rows => ?_
  exact (Obeys.requesting _).bind fun _ => .pure _

/-- Totals take a call or, where none are asked for, no call. -/
theorem obeys_totals (o : LoadRequest) (predicate : Predicate) (s : Settings) (remote : Bool) :
    Obeys l.backend cancelled n n (l.totals o predicate s remote) := by
  rw [totals]
  split
  · exact .pure none
  · refine Obeys.fewer ?_ n.le_succ
    split
    · exact (l.obeys_backendGrouping predicate [] o.totalSummary [] s).bind fun _ => .pure _
    · exact (l.obeys_fetch _).bind fun _ => (Obeys.requesting _).bind fun _ => .pure _

/-- A page of records is at least one call. -/
theorem obeys_recordPage (o : LoadRequest) (predicate : Predicate) (s : Settings)
    (remote : Bool) :
    Obeys l.backend cancelled n (n + 1) (l.recordPage o predicate s remote) := by
  refine (l.obeys_totals o predicate s remote).bind fun summary => ?_
  refine (l.obeys_fetch _).bind fun data => ?_
  dsimp only
  split
  · exact .pure _
  · split
    · exact .pure _
    · exact Obeys.fewer ((l.obeys_count predicate).bind fun _ => .pure _) (n + 1).le_succ

/-- Grouping here is at least one call. -/
theorem obeys_groupsHere (o : LoadRequest) (predicate : Predicate) (s : Settings) :
    Obeys l.backend cancelled n (n + 1) (l.groupsHere o predicate s) := by
  refine (l.obeys_fetch _).bind fun records => ?_
  exact (Obeys.requesting _).bind fun _ => .pure _

/-- Grouping by the backend and what is made of it is at least one call. -/
theorem obeys_groupsOfBackend (o : LoadRequest) (predicate : Predicate) (s : Settings) :
    Obeys l.backend cancelled n (n + 1) (l.groupsOfBackend o predicate s) := by
  refine (l.obeys_backendGrouping predicate _ _ _ s).bind fun regrouped => ?_
  exact (Obeys.reading _).bind fun _ => .pure _

/-- A request that succeeds has made a call, whichever way it takes. -/
theorem obeys_load (o : LoadRequest) : Obeys l.backend cancelled 0 1 (l.load o) := by
  refine (l.obeys_predicateOf o _).bind fun predicate => ?_
  dsimp only
  split
  · exact (l.obeys_count predicate).bind fun _ => .pure _
  · split
    · exact l.obeys_recordPage o predicate _ _
    · split
      · exact l.obeys_groupsOfBackend o predicate _
      · exact l.obeys_groupsHere o predicate _

end Loader

/-! ### The protocol -/

section Outcomes

variable {b : Backend ε} {cancelled : Bool} {s : LoadState}

/-- None of the calls so far stops the request. -/
theorem Untroubled.not_stops {n : Nat} (h : Untroubled b cancelled n s) {before : List BackendCall}
    {made : BackendCall} (hmade : before ++ [made] <+: s.calls) {e : LoadFailure ε} :
    ¬ (b.course before made).Stops e :=
  Course.not_stops_of_ends (h.ended before made hmade)

/-- No call stops the request. -/
theorem Untroubled.protocol {outcome : Except (LoadFailure ε) α} (h : Untroubled b cancelled 0 s)
    (ok : ∀ a, outcome = .ok a → s.calls ≠ [])
    (backend : ∀ e, outcome ≠ .error (.backend e))
    (refused : outcome = .error .cancelled → cancelled = true) :
    Protocol b cancelled s.calls outcome where
  starts before made hmade := by
    constructor
    · refine h.running fun none => ?_
      rw [none, List.prefix_nil] at hmade
      exact absurd hmade (List.append_ne_nil_of_right_ne_nil before (List.cons_ne_nil made []))
    · intro earlier made' hmade'
      exact h.ended earlier made' (hmade'.trans ((List.prefix_append before [made]).trans hmade))
  succeeds a ha := ⟨ok a ha, h.ended⟩
  stops before made e hmade hstops := absurd hstops (h.not_stops hmade)
  backend e he := absurd he (backend e)
  cancelled he := by
    have on := refused he
    refine .inl ⟨on, Classical.byContradiction fun made => ?_⟩
    rw [h.running made] at on
    cases on

/-- The last call stops the request. -/
theorem Untroubled.protocol_of_stops {call : BackendCall} {e : LoadFailure ε}
    (h : Untroubled b cancelled 0 s) (off : cancelled = false)
    (hstops : (b.course s.calls call).Stops e) :
    Protocol b cancelled (s.calls ++ [call]) (.error e : Except (LoadFailure ε) α) where
  starts before made hmade := by
    refine ⟨off, fun earlier made' hmade' => h.ended earlier made' (hmade'.trans ?_)⟩
    rcases List.prefix_concat_iff.1 hmade with last | before_made
    · exact ((List.append_inj' last rfl).1).symm ▸ List.prefix_rfl
    · exact (List.prefix_append before [made]).trans before_made
  succeeds a ha := nomatch ha
  stops before made e' hmade hstops' := by
    rcases List.prefix_concat_iff.1 hmade with last | before_made
    · obtain ⟨rfl, made_eq⟩ := List.append_inj' last rfl
      cases made_eq
      have same := hstops.outcome_eq.symm.trans hstops'.outcome_eq
      exact ⟨rfl, by rw [Except.error.inj same]⟩
    · exact absurd hstops' (h.not_stops before_made)
  backend e' he := by
    cases he
    exact ⟨s.calls, call, rfl, hstops⟩
  cancelled he := by
    cases he
    exact .inr ⟨s.calls, call, rfl, hstops⟩

/-- Work that halts has kept to the protocol. -/
theorem Halted.protocol {e : LoadFailure ε} (h : Halted b cancelled e s) :
    Protocol b cancelled s.calls (.error e : Except (LoadFailure ε) α) := by
  cases h with
  | compile e h =>
    exact h.protocol (fun _ h => nomatch h) (fun _ h => nomatch h) fun h => nomatch h
  | read e h =>
    exact h.protocol (fun _ h => nomatch h) (fun _ h => nomatch h) fun h => nomatch h
  | refused h on => exact h.protocol (fun _ h => nomatch h) (fun _ h => nomatch h) fun _ => on
  | stopped h off last stops =>
    rw [last]
    exact h.protocol_of_stops off stops

end Outcomes

/-- Every request keeps to the protocol of calls: none is made after a cancellation or a failure,
and the outcome is what the last of them makes it. -/
theorem Loader.serve_protocol (l : Loader ε) (o : LoadRequest) (cancelled : Bool)
    (registry : Option Registry) :
    Protocol l.backend cancelled (l.serve o cancelled registry).2.calls
      (l.serve o cancelled registry).1 := by
  have start : Untroubled l.backend cancelled 0 ⟨cancelled, [], registry⟩ := by
    refine ⟨rfl, fun made => absurd rfl made, fun before call made => ?_, Nat.zero_le _⟩
    rw [List.prefix_nil] at made
    exact absurd made (List.append_ne_nil_of_right_ne_nil before (List.cons_ne_nil call []))
  have settled := l.obeys_load o _ start
  rw [serve]
  generalize (l.load o).run.run ⟨cancelled, [], registry⟩ = ended at settled ⊢
  cases settled with
  | ok h =>
    refine (h.mono (Nat.zero_le 1)).protocol (fun _ _ none => ?_) (fun _ h => nomatch h)
      fun h => nomatch h
    have enough := h.enough
    rw [none] at enough
    exact absurd enough (Nat.not_succ_le_zero 0)
  | error h => exact h.protocol

end DataGrid
