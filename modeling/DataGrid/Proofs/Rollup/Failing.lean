import DataGrid.Proofs.Rollup

/-!
# Why a rollup fails

A rollup fails only as one of its measures does on a row (`Rollup.run_eq_error`), and a measure
fails on a row only as one of its fields cannot be read from it, or as the value in it is `Unfit`
(`Tally.step_eq_error`).
-/

namespace DataGrid

open Subtree (leafRows leafRowsOf)

variable {α : Type} {read : Source → α → Except ReadError Value} {e : ReadError} {row : α}

/-- The errors of values that cannot be added to a sum or to a count. -/
inductive Unfit : ReadError → Prop where
  /-- no number where numbers are summed -/
  | number (v : Value) : Unfit (wrongKind "number" v)
  /-- no count where counts are added up -/
  | count (v : Value) : Unfit (wrongKind "count" v)
  /-- a sum of spans that leaves their range -/
  | spans : Unfit .spanOverflow

/-- That a row is too short is no error of a value. -/
theorem Unfit.ne_missingField (h : Unfit e) (position width : Nat) :
    e ≠ .missingField position width := by
  cases h <;> exact fun h => nomatch h

/-- Nor is that a value is no integer. -/
theorem Unfit.ne_int (h : Unfit e) (found : String) : e ≠ .typeMismatch "int" found := by
  cases h <;> simp [wrongKind]

namespace Tally

/-- A sum fails only of a value that does not fit. -/
theorem unfit_of_add {total : RunningSum} {v : Value} (h : total.add v = .error e) : Unfit e := by
  rw [RunningSum.add.eq_def] at h
  split at h
  case h_8 sum a =>
    rw [Outcome.map_eq_error, Sum.addSpans] at h
    split at h
    · cases h
    · cases h
      exact .spans
  case h_9 v _ _ _ _ _ _ _ _ =>
    cases h
    exact .number _
  all_goals cases h

theorem unfit_of_addValue {total : RunningSum} {v : Value} (h : addValue total v = .error e) :
    Unfit e := by
  rw [addValue] at h
  split at h
  · cases h
  · exact unfit_of_add h

/-- So does a count. -/
theorem unfit_of_countOf {v : Value} (h : countOf v = .error e) : Unfit e := by
  rw [countOf.eq_def] at h
  split at h
  · cases h
  · cases h
  · split at h
    · cases h
    · cases h
      exact .count _
  · cases h
    exact .count _

/-- The state fails with a value as the value cannot be added, or as there is no value to count. -/
theorem stepWith_eq_error {t : Tally} {v : Value} {counts : Except ReadError Value}
    (h : t.stepWith v counts = .error e) : counts = .error e ∨ Unfit e := by
  cases t with
  | sum total seen => exact .inr (unfit_of_addValue (Outcome.map_eq_error.1 h))
  | avg total n => exact .inr (unfit_of_addValue (Outcome.map_eq_error.1 h))
  | remoteCount n => exact .inr (unfit_of_countOf (Outcome.map_eq_error.1 h))
  | remoteAvg total n =>
    rcases Outcome.bind_eq_error.1 h with h | ⟨total, -, h⟩
    · exact .inr (unfit_of_addValue h)
    rcases Outcome.bind_eq_error.1 h with h | ⟨v, -, h⟩
    · exact .inl h
    rcases Outcome.bind_eq_error.1 h with h | ⟨c, -, h⟩
    · exact .inr (unfit_of_countOf h)
    · cases h
  | count n => cases h
  | min least => cases h
  | max greatest => cases h

/-- A field that cannot be read is there. -/
theorem exists_source_of_readOptional {field : Option Source}
    (h : readOptional read row field = .error e) :
    ∃ source, field = some source ∧ read source row = .error e := by
  cases field with
  | none => cases h
  | some source => exact ⟨source, rfl, h⟩

/-- A measure fails on a row as a field of it does, or as a value in it is unfit. -/
theorem step_eq_error {m : Measure} {t : Tally} (h : step read m t row = .error e) :
    (∃ source, (m.field = some source ∨ m.countField = some source)
      ∧ read source row = .error e) ∨ Unfit e := by
  rcases Outcome.bind_eq_error.1 h with h | ⟨v, -, h⟩
  · obtain ⟨source, hsource, he⟩ := exists_source_of_readOptional h
    exact .inl ⟨source, .inl hsource, he⟩
  rcases stepWith_eq_error h with h | unfit
  · obtain ⟨source, hsource, he⟩ := exists_source_of_readOptional h
    exact .inl ⟨source, .inr hsource, he⟩
  · exact .inr unfit

end Tally

namespace Rollup

variable {r : Rollup}

/-- A measure fails on one of some rows. -/
def FailsOn (read : Source → α → Except ReadError Value) (r : Rollup) (rows : List α)
    (e : ReadError) : Prop :=
  ∃ row ∈ rows, ∃ m ∈ r.total ++ r.group, ∃ t, Tally.step read m t row = .error e

/-- What fails on rows fails on more. -/
theorem FailsOn.mono {rows rows' : List α} (h : FailsOn read r rows e) (sub : rows ⊆ rows') :
    FailsOn read r rows' e :=
  h.imp fun _ h => ⟨sub h.1, h.2⟩

/-- A set of tallies fails on a row as one of them does. -/
theorem stepAll_eq_error {ms : List Measure} {ts : List Tally}
    (h : stepAll read ms ts row = .error e) :
    ∃ m ∈ ms, ∃ t, Tally.step read m t row = .error e := by
  induction ms generalizing ts with
  | nil => cases h
  | cons m ms ih =>
    cases ts with
    | nil => cases h
    | cons t ts =>
      rcases Outcome.bind_eq_error.1 h with h | ⟨t', -, h⟩
      · exact ⟨m, List.mem_cons_self, t, h⟩
      rcases Outcome.bind_eq_error.1 h with h | ⟨ts', -, h⟩
      · obtain ⟨m', hm', failing⟩ := ih h
        exact ⟨m', List.mem_cons_of_mem m hm', failing⟩
      · cases h

/-- So do the sets of all groups that are open. -/
theorem stepStack_eq_error {ms : List Measure} {sets : List (List Tally)}
    (h : stepStack read ms row sets = .error e) :
    ∃ m ∈ ms, ∃ t, Tally.step read m t row = .error e := by
  induction sets with
  | nil => cases h
  | cons set rest ih =>
    rcases Outcome.bind_eq_error.1 h with h | ⟨set', -, h⟩
    · exact stepAll_eq_error h
    rcases Outcome.bind_eq_error.1 h with h | ⟨rest', -, h⟩
    · exact ih h
    · cases h

/-- Entering a row fails as a measure does on it. -/
theorem enterRow_eq_error {o : Open} (h : enterRow read r o row = .error e) :
    FailsOn read r [row] e := by
  refine ⟨row, List.mem_singleton_self row, ?_⟩
  rcases Outcome.bind_eq_error.1 h with h | ⟨totals, -, h⟩
  · obtain ⟨m, hm, failing⟩ := stepAll_eq_error h
    exact ⟨m, List.mem_append_left _ hm, failing⟩
  rcases Outcome.bind_eq_error.1 h with h | ⟨stack, -, h⟩
  · obtain ⟨m, hm, failing⟩ := stepStack_eq_error h
    exact ⟨m, List.mem_append_right _ hm, failing⟩
  · cases h

/-- Entering rows fails as a measure does on one of them. -/
theorem foldlM_enterRow_eq_error {rows : List α} {o : Open}
    (h : rows.foldlM (enterRow read r) o = .error e) : FailsOn read r rows e := by
  induction rows generalizing o with
  | nil => cases h
  | cons row rest ih =>
    rcases Outcome.bind_eq_error.1 h with h | ⟨o', -, h⟩
    · exact (enterRow_eq_error h).mono (List.cons_subset_cons row (List.nil_subset rest))
    · exact (ih h).mono (List.subset_cons_self row rest)

mutual

/-- So does walking a tree, by induction on it. -/
theorem walk_eq_error : (t : Subtree α) → {o : Open} → walk read r t o = .error e →
    FailsOn read r (leafRows t) e
  | .groups gs, o, h => by
    rcases Outcome.bind_eq_error.1 h with h | ⟨_, -, h⟩
    · exact walkGroups_eq_error gs h
    · cases h
  | .rows rs, o, h => by
    rcases Outcome.bind_eq_error.1 h with h | ⟨_, -, h⟩
    · exact foldlM_enterRow_eq_error h
    · cases h
  | .dropped, o, h => by cases h

theorem walkGroups_eq_error : (gs : List (Group α)) → {o : Open} →
    walkGroups read r gs o = .error e → FailsOn read r (leafRowsOf gs) e
  | [], o, h => by cases h
  | .mk key items count summary :: rest, o, h => by
    rcases Outcome.bind_eq_error.1 h with h | ⟨_, -, h⟩
    · exact (walk_eq_error items h).mono (List.subset_append_left _ _)
    rcases Outcome.bind_eq_error.1 h with h | ⟨_, -, h⟩
    · exact (walkGroups_eq_error rest h).mono (List.subset_append_right _ _)
    · cases h

end

/-- A rollup fails as one of its measures does on one of the rows of the tree. -/
theorem run_eq_error {t : Subtree α} (h : r.run read t = .error e) :
    FailsOn read r (leafRows t) e := by
  rcases Outcome.bind_eq_error.1 h with h | ⟨_, -, h⟩
  · exact walk_eq_error t h
  · cases h

end Rollup

end DataGrid
