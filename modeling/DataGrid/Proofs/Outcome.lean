import Mathlib.Data.List.Forall2

/-!
# Outcomes of work that may fail

* Lemmas take an `Except` apart where it succeeds or fails: a sequence succeeds if its parts do, one
  after another, and fails as the first part that does.
* `Outcome.Alike R` says that two outcomes are failures for one reason, or results that `R` relates.
-/

namespace DataGrid.Outcome

variable {ε ε' α β : Type}

theorem bind_eq_ok {x : Except ε α} {f : α → Except ε β} {b : β} :
    x >>= f = .ok b ↔ ∃ a, x = .ok a ∧ f a = .ok b := by
  cases x with
  | error e => exact ⟨fun h => (nomatch h), fun ⟨_, h, _⟩ => (nomatch h)⟩
  | ok a => exact ⟨fun h => ⟨a, rfl, h⟩, fun ⟨_, h, h'⟩ => by cases h; exact h'⟩

theorem map_eq_ok {x : Except ε α} {f : α → β} {b : β} :
    x.map f = .ok b ↔ ∃ a, x = .ok a ∧ f a = b := by
  cases x with
  | error e => exact ⟨fun h => (nomatch h), fun ⟨_, h, _⟩ => (nomatch h)⟩
  | ok a => simp [Except.map]

theorem mapError_eq_ok {x : Except ε α} {f : ε → ε'} {a : α} :
    x.mapError f = .ok a ↔ x = .ok a := by
  cases x <;> simp [Except.mapError]

theorem mapError_eq_error {x : Except ε α} {f : ε → ε'} {e : ε'} :
    x.mapError f = .error e ↔ ∃ cause, x = .error cause ∧ f cause = e := by
  cases x <;> simp [Except.mapError]

theorem map_eq_error {x : Except ε α} {f : α → β} {e : ε} : x.map f = .error e ↔ x = .error e := by
  cases x <;> simp [Except.map]

theorem bind_eq_error {x : Except ε α} {f : α → Except ε β} {e : ε} :
    x >>= f = .error e ↔ x = .error e ∨ ∃ a, x = .ok a ∧ f a = .error e := by
  cases x with
  | error e' => simp [bind, Except.bind]
  | ok a => simp [bind, Except.bind]

/-- Work on every element of a list succeeds if it does on each. -/
theorem mapM_eq_ok {f : α → Except ε β} {xs : List α} {ys : List β} :
    xs.mapM f = .ok ys ↔ List.Forall₂ (fun x y => f x = .ok y) xs ys := by
  induction xs generalizing ys with
  | nil =>
    rw [List.mapM_nil, List.forall₂_nil_left_iff]
    exact ⟨fun h => by cases h; rfl, fun h => by rw [h]; rfl⟩
  | cons x xs ih =>
    rw [List.mapM_cons, bind_eq_ok, List.forall₂_cons_left_iff]
    constructor
    · rintro ⟨y, hy, h⟩
      obtain ⟨ys', hys, h⟩ := bind_eq_ok.1 h
      cases h
      exact ⟨y, ys', hy, ih.1 hys, rfl⟩
    · rintro ⟨y, ys', hy, hys, rfl⟩
      exact ⟨y, hy, bind_eq_ok.2 ⟨ys', ih.2 hys, rfl⟩⟩

/-- Work on every element of a list fails as it does on the first on which it fails. -/
theorem mapM_eq_error {f : α → Except ε β} {xs : List α} {e : ε} :
    xs.mapM f = .error e ↔ ∃ before x after, xs = before ++ x :: after
      ∧ (∀ b ∈ before, ∃ y, f b = .ok y) ∧ f x = .error e := by
  induction xs with
  | nil =>
    rw [List.mapM_nil]
    constructor
    · intro h
      cases h
    · rintro ⟨before, x, after, h, -⟩
      simp at h
  | cons x xs ih =>
    rw [List.mapM_cons, bind_eq_error]
    simp only [bind_eq_error, ih]
    constructor
    · rintro (hx | ⟨y, hy, ⟨before, x', after, rfl, hbefore, hx'⟩ | ⟨ys, -, h⟩⟩)
      · exact ⟨[], x, xs, rfl, fun _ h => (nomatch h), hx⟩
      · exact ⟨x :: before, x', after, rfl, List.forall_mem_cons.2 ⟨⟨y, hy⟩, hbefore⟩, hx'⟩
      · cases h
    · rintro ⟨before, x', after, h, hbefore, hx'⟩
      cases before with
      | nil =>
        cases h
        exact .inl hx'
      | cons b before =>
        cases h
        obtain ⟨⟨y, hy⟩, hbefore⟩ := List.forall_mem_cons.1 hbefore
        exact .inr ⟨y, hy, .inl ⟨before, x', after, rfl, hbefore, hx'⟩⟩

theorem mapM_ok {f : α → Except ε β} {g : α → β} {xs : List α}
    (h : ∀ x ∈ xs, f x = .ok (g x)) : xs.mapM f = .ok (xs.map g) := by
  rw [mapM_eq_ok, List.forall₂_map_right_iff]
  exact List.forall₂_same.2 h

/-- Work that succeeds on every element of a list gave each its result. -/
theorem exists_of_mapM_eq_ok {f : α → Except ε β} {xs : List α} {ys : List β}
    (h : xs.mapM f = .ok ys) {x : α} (hx : x ∈ xs) : ∃ y ∈ ys, f x = .ok y := by
  induction mapM_eq_ok.1 h with
  | nil => cases hx
  | cons hxy _ ih =>
    rcases List.mem_cons.1 hx with rfl | hx
    · exact ⟨_, List.mem_cons_self, hxy⟩
    · obtain ⟨y, hy, hxy⟩ := ih (mapM_eq_ok.2 ‹_›) hx
      exact ⟨y, List.mem_cons_of_mem _ hy, hxy⟩

/-- Every result of work on a list comes of one of its elements. -/
theorem exists_of_mem_of_mapM_eq_ok {f : α → Except ε β} {xs : List α} {ys : List β}
    (h : xs.mapM f = .ok ys) {y : β} (hy : y ∈ ys) : ∃ x ∈ xs, f x = .ok y := by
  induction mapM_eq_ok.1 h with
  | nil => cases hy
  | cons hxy _ ih =>
    rcases List.mem_cons.1 hy with rfl | hy
    · exact ⟨_, List.mem_cons_self, hxy⟩
    · obtain ⟨x, hx, hxy⟩ := ih (mapM_eq_ok.2 ‹_›) hy
      exact ⟨x, List.mem_cons_of_mem _ hx, hxy⟩

/-- Work succeeds on a list if it does on each element. -/
theorem exists_mapM_eq_ok {f : α → Except ε β} {xs : List α}
    (h : ∀ x ∈ xs, ∃ y, f x = .ok y) : ∃ ys, xs.mapM f = .ok ys := by
  induction xs with
  | nil => exact ⟨[], rfl⟩
  | cons x xs ih =>
    obtain ⟨y, hy⟩ := h x List.mem_cons_self
    obtain ⟨ys, hys⟩ := ih fun x hx => h x (List.mem_cons_of_mem _ hx)
    exact ⟨y :: ys, mapM_eq_ok.2 (.cons hy (mapM_eq_ok.1 hys))⟩

/-- Elements that come along with the results of work on them. -/
theorem map_snd_of_mapM_eq_ok {f : α → Except ε β} {xs : List α} {pairs : List (β × α)}
    (h : xs.mapM (fun x => do return (← f x, x)) = .ok pairs) : pairs.map Prod.snd = xs := by
  have same : List.Forall₂ (fun x pair => x = Prod.snd pair) xs pairs := by
    refine (mapM_eq_ok.1 h).imp fun x pair h => ?_
    obtain ⟨key, -, h⟩ := bind_eq_ok.1 h
    cases h
    rfl
  rw [← List.forall₂_map_right_iff, List.forall₂_eq_eq_eq] at same
  exact same.symm

theorem isEmpty_of_forall₂ {R : α → β → Prop} {as : List α} {bs : List β}
    (h : List.Forall₂ R as bs) : bs.isEmpty = as.isEmpty := by
  cases h <;> rfl

theorem forall₂_concat_left_iff {R : α → β → Prop} {as : List α} {a : α}
    {bs : List β} :
    List.Forall₂ R (as ++ [a]) bs ↔ ∃ bs' b, List.Forall₂ R as bs' ∧ R a b ∧ bs = bs' ++ [b] := by
  constructor
  · intro h
    induction as generalizing bs with
    | nil =>
      obtain ⟨b, _, hab, hnil, rfl⟩ := List.forall₂_cons_left_iff.1 h
      obtain rfl := List.forall₂_nil_left_iff.1 hnil
      exact ⟨[], b, .nil, hab, rfl⟩
    | cons a' as ih =>
      obtain ⟨b', bs, hb', hbs, rfl⟩ := List.forall₂_cons_left_iff.1 h
      obtain ⟨bs', b, hbs', hab, rfl⟩ := ih hbs
      exact ⟨b' :: bs', b, .cons hb' hbs', hab, rfl⟩
  · rintro ⟨bs', b, hbs', hab, rfl⟩
    exact List.rel_append hbs' (.cons hab .nil)

/-! ### Outcomes that are alike -/

variable {α' β' : Type}

/-- Two outcomes are failures for one reason, or related results. -/
inductive Alike (R : α → β → Prop) : Except ε α → Except ε β → Prop where
  /-- related results -/
  | ok {a : α} {b : β} (h : R a b) : Alike R (.ok a) (.ok b)
  /-- the same failure -/
  | error (e : ε) : Alike R (.error e) (.error e)

namespace Alike

variable {R : α → β → Prop} {S : α' → β' → Prop} {x : Except ε α} {y : Except ε β}

theorem bind {f : α → Except ε α'} {g : β → Except ε β'} (h : Alike R x y)
    (hfg : ∀ a b, R a b → Alike S (f a) (g b)) : Alike S (x >>= f) (y >>= g) := by
  cases h with
  | ok h => exact hfg _ _ h
  | error e => exact .error e

theorem error_iff (h : Alike R x y) (e : ε) : x = .error e ↔ y = .error e := by
  cases h with
  | ok h => exact ⟨fun h => (nomatch h), fun h => (nomatch h)⟩
  | error e' => rw [Except.error.injEq, Except.error.injEq]

theorem rel {a : α} {b : β} (h : Alike R x y) (hx : x = .ok a) (hy : y = .ok b) : R a b := by
  cases h with
  | ok h =>
    cases hx
    cases hy
    exact h
  | error e => cases hx

end Alike

end DataGrid.Outcome
