import Mathlib.Data.List.Basic

/-!
# Work whose state does not show

Work that keeps a state *computes* an outcome if it gives that outcome from every state with an
invariant, and keeps the invariant. The rules follow the shape of the work: `Computes.pure`,
`Computes.bind`, `Computes.mapM`, and `Computes.get_bind` for work that looks at its state.
-/

namespace DataGrid

variable {σ ε α β : Type}

/-- From every state with an invariant the work has the outcome, and keeps the invariant. -/
def Computes (inv : σ → Prop) (work : ExceptT ε (StateM σ) α) (outcome : Except ε α) : Prop :=
  ∀ s, inv s → (work.run.run s).1 = outcome ∧ inv (work.run.run s).2

/-- Work that succeeds hands its result and its state to what follows. -/
theorem run_bind_of_ok {work : ExceptT ε (StateM σ) α} {f : α → ExceptT ε (StateM σ) β} {s s' : σ}
    {a : α} (h : work.run.run s = (.ok a, s')) :
    (work >>= f).run.run s = (f a).run.run s' := by
  simp only [ExceptT.run_bind, StateT.run_bind, h]
  rfl

/-- Work that fails hands nothing on. -/
theorem run_bind_of_error {work : ExceptT ε (StateM σ) α} {f : α → ExceptT ε (StateM σ) β}
    {s s' : σ} {e : ε} (h : work.run.run s = (.error e, s')) :
    (work >>= f).run.run s = (.error e, s') := by
  simp only [ExceptT.run_bind, StateT.run_bind, h]
  rfl

namespace Computes

variable {inv : σ → Prop}

theorem pure (a : α) : Computes inv (Pure.pure a : ExceptT ε (StateM σ) α) (.ok a) :=
  fun _ hs => ⟨rfl, hs⟩

theorem throw (e : ε) :
    Computes inv (MonadExcept.throw e : ExceptT ε (StateM σ) α) (.error e) :=
  fun _ hs => ⟨rfl, hs⟩

theorem lift (outcome : Except ε α) :
    Computes inv (liftExcept outcome : ExceptT ε (StateM σ) α) outcome := by
  cases outcome with
  | error e => exact throw e
  | ok a => exact pure a

theorem bind {work : ExceptT ε (StateM σ) α} {outcome : Except ε α}
    {f : α → ExceptT ε (StateM σ) β} {g : α → Except ε β} (h : Computes inv work outcome)
    (next : ∀ a, outcome = .ok a → Computes inv (f a) (g a)) :
    Computes inv (work >>= f) (outcome >>= g) := by
  intro s hs
  obtain ⟨hout, hinv⟩ := h s hs
  rcases hwork : work.run.run s with ⟨result, s'⟩
  rw [hwork] at hout hinv
  obtain rfl : result = outcome := hout
  cases result with
  | error e =>
    rw [run_bind_of_error hwork]
    exact ⟨rfl, hinv⟩
  | ok a =>
    rw [run_bind_of_ok hwork]
    exact next a rfl s' hinv

theorem of_eq {work : ExceptT ε (StateM σ) α} {outcome outcome' : Except ε α}
    (h : Computes inv work outcome) (same : outcome = outcome') : Computes inv work outcome' :=
  same ▸ h

/-- Work that looks at its state computes what it does for every state. -/
theorem get_bind {f : σ → ExceptT ε (StateM σ) α} {outcome : Except ε α}
    (h : ∀ s, inv s → Computes inv (f s) outcome) :
    Computes inv (get >>= f) outcome :=
  fun s hs => h s hs s hs

theorem mapM {f : α → ExceptT ε (StateM σ) β} {g : α → Except ε β} {xs : List α}
    (h : ∀ x ∈ xs, Computes inv (f x) (g x)) : Computes inv (xs.mapM f) (xs.mapM g) := by
  induction xs with
  | nil => exact pure []
  | cons x xs ih =>
    rw [List.mapM_cons, List.mapM_cons]
    refine (h x List.mem_cons_self).bind fun y _ => ?_
    exact (ih fun x hx => h x (List.mem_cons_of_mem _ hx)).bind fun ys _ => pure _

/-- What the work gives from a state with the invariant. -/
theorem run_eq {work : ExceptT ε (StateM σ) α} {outcome : Except ε α}
    (h : Computes inv work outcome) {s : σ} (hs : inv s) : (work.run.run s).1 = outcome :=
  (h s hs).1

end Computes

end DataGrid
