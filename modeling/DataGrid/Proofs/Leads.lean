import DataGrid.Proofs.Computes

/-!
# Where work leads

Work that keeps a state and may fail *leads* from states with `pre` to results and states with
`post`, or to failures and states with `fail`. The rules follow the shape of the work, as those of
`Computes` do; here the state counts, and the outcome need not be known in advance. `Yields` is the
case in which only the result counts.
-/

namespace DataGrid

variable {σ ε α β : Type}

/-- What the work ends with, in the way it ends. -/
inductive Settled (post : α → σ → Prop) (fail : ε → σ → Prop) : Except ε α × σ → Prop where
  /-- it succeeds -/
  | ok {a : α} {s : σ} (h : post a s) : Settled post fail (.ok a, s)
  /-- it fails -/
  | error {e : ε} {s : σ} (h : fail e s) : Settled post fail (.error e, s)

/-- From every state with `pre` the work ends with `post` or fails with `fail`. -/
def Leads (pre : σ → Prop) (work : ExceptT ε (StateM σ) α) (post : α → σ → Prop)
    (fail : ε → σ → Prop) : Prop :=
  ∀ s, pre s → Settled post fail (work.run.run s)

namespace Leads

variable {pre : σ → Prop} {post : α → σ → Prop} {fail : ε → σ → Prop}

theorem pure {a : α} (h : ∀ s, pre s → post a s) :
    Leads pre (Pure.pure a : ExceptT ε (StateM σ) α) post fail :=
  fun s hs => .ok (h s hs)

theorem bind {work : ExceptT ε (StateM σ) α} {f : α → ExceptT ε (StateM σ) β}
    {mid : α → σ → Prop} {post : β → σ → Prop} (h : Leads pre work mid fail)
    (next : ∀ a, Leads (mid a) (f a) post fail) : Leads pre (work >>= f) post fail := by
  intro s hs
  have settled := h s hs
  rcases hrun : work.run.run s with ⟨outcome, s'⟩
  rw [hrun] at settled
  cases settled with
  | ok hmid =>
    rw [run_bind_of_ok hrun]
    exact next _ s' hmid
  | error hfail =>
    rw [run_bind_of_error hrun]
    exact .error hfail

/-- Less may be asked of the result, and more be known at the start. -/
theorem mono {pre' : σ → Prop} {post' : α → σ → Prop} {work : ExceptT ε (StateM σ) α}
    (h : Leads pre work post fail) (hpre : ∀ s, pre' s → pre s)
    (hpost : ∀ a s, post a s → post' a s) : Leads pre' work post' fail := by
  intro s hs
  have settled := h s (hpre s hs)
  generalize work.run.run s = ended at settled ⊢
  cases settled with
  | ok h => exact .ok (hpost _ _ h)
  | error h => exact .error h

end Leads

/-- Whenever the work succeeds, its result has a property. -/
def Yields (work : ExceptT ε (StateM σ) α) (P : α → Prop) : Prop :=
  Leads (fun _ => True) work (fun a _ => P a) fun _ _ => True

namespace Yields

variable {P : α → Prop} {work : ExceptT ε (StateM σ) α}

theorem pure {a : α} (h : P a) : Yields (Pure.pure a : ExceptT ε (StateM σ) α) P :=
  Leads.pure fun _ _ => h

theorem any : Yields work fun _ => True := by
  intro s _
  rcases work.run.run s with ⟨outcome, s'⟩
  cases outcome with
  | ok a => exact .ok trivial
  | error e => exact .error trivial

theorem bind {f : α → ExceptT ε (StateM σ) β} {Q : β → Prop} (h : Yields work P)
    (next : ∀ a, P a → Yields (f a) Q) : Yields (work >>= f) Q :=
  Leads.bind h fun a s hs => next a hs s trivial

/-- What the work gives, from whatever state it starts. -/
theorem result (h : Yields work P) {s : σ} {a : α} (run : (work.run.run s).1 = .ok a) : P a := by
  have settled := h s trivial
  rcases hrun : work.run.run s with ⟨outcome, s'⟩
  rw [hrun] at settled run
  cases settled with
  | ok h =>
    cases run
    exact h
  | error _ => cases run

end Yields

end DataGrid
