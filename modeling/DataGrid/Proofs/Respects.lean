import DataGrid.Proofs.Computes

/-!
# States that steps do not tell apart

A step *respects* a relation of states if it gives the same from states that are related, and leaves
states that are related. Work that keeps a state and may fail is such a step; the rules follow its
shape, as those of `Computes` do. Here the outcome may depend on the state, but not on that in which
related states differ.
-/

namespace DataGrid

variable {σ ε α β : Type}

/-- From related states the step gives the same, and leaves related states. -/
def Respects (alike : σ → σ → Prop) (step : σ → α × σ) : Prop :=
  ∀ s s', alike s s' → ∃ a t t', step s = (a, t) ∧ step s' = (a, t') ∧ alike t t'

/-- Both states have an invariant. -/
def Both (inv : σ → Prop) (s s' : σ) : Prop := inv s ∧ inv s'

namespace Respects

variable {alike : σ → σ → Prop} {step : σ → α × σ} {s s' : σ}

/-- What a step gives is the same from related states. -/
theorem same (h : Respects alike step) (hs : alike s s') : (step s).1 = (step s').1 := by
  obtain ⟨a, t, t', hstep, hstep', -⟩ := h s s' hs
  rw [hstep, hstep']

theorem alike_next (h : Respects alike step) (hs : alike s s') :
    alike (step s).2 (step s').2 := by
  obtain ⟨a, t, t', hstep, hstep', ht⟩ := h s s' hs
  rwa [hstep, hstep']

theorem pure (a : α) : Respects alike (Pure.pure a : ExceptT ε (StateM σ) α).run.run :=
  fun s s' hs => ⟨.ok a, s, s', rfl, rfl, hs⟩

theorem throw (e : ε) :
    Respects alike (MonadExcept.throw e : ExceptT ε (StateM σ) α).run.run :=
  fun s s' hs => ⟨.error e, s, s', rfl, rfl, hs⟩

theorem lift (outcome : Except ε α) :
    Respects alike (liftExcept outcome : ExceptT ε (StateM σ) α).run.run := by
  cases outcome with
  | error e => exact throw e
  | ok a => exact pure a

theorem bind {work : ExceptT ε (StateM σ) α} {f : α → ExceptT ε (StateM σ) β}
    (h : Respects alike work.run.run) (next : ∀ a, Respects alike (f a).run.run) :
    Respects alike (work >>= f).run.run := by
  intro s s' hs
  obtain ⟨outcome, t, t', hwork, hwork', ht⟩ := h s s' hs
  cases outcome with
  | error e => exact ⟨.error e, t, t', run_bind_of_error hwork, run_bind_of_error hwork', ht⟩
  | ok a =>
    obtain ⟨outcome, u, u', hnext, hnext', hu⟩ := next a t t' ht
    exact ⟨outcome, u, u', (run_bind_of_ok hwork).trans hnext,
      (run_bind_of_ok hwork').trans hnext', hu⟩

/-- Work that looks at its state respects what it cannot see the difference of. -/
theorem get_bind {f : σ → ExceptT ε (StateM σ) α}
    (h : ∀ s s', alike s s' → f s = f s' ∧ Respects alike (f s).run.run) :
    Respects alike (get >>= f).run.run := by
  intro s s' hs
  obtain ⟨same, respects⟩ := h s s' hs
  obtain ⟨outcome, t, t', hrun, hrun', ht⟩ := respects s s' hs
  exact ⟨outcome, t, t', hrun, (congrArg (fun work => work.run.run s') same).symm.trans hrun', ht⟩

/-- Work that computes an outcome tells no states with the invariant apart. -/
theorem of_computes {inv : σ → Prop} {work : ExceptT ε (StateM σ) α} {outcome : Except ε α}
    (h : Computes inv work outcome) :
    Respects (Both inv) work.run.run := by
  rintro s s' ⟨hs, hs'⟩
  obtain ⟨hout, hinv⟩ := h s hs
  obtain ⟨hout', hinv'⟩ := h s' hs'
  exact ⟨outcome, _, _, Prod.ext hout rfl, Prod.ext hout' rfl, hinv, hinv'⟩

end Respects

end DataGrid
