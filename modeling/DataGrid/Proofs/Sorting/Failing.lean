import DataGrid.Proofs.Sorting

/-!
# Sorts that fail

A sort takes the records out of their list, reads all their keys, and puts the records back in
order. It fails as the first key that cannot be read: record by record, and level by level
(`Sorter.FailsFirst`). No record is put back then, not even one whose key was read, so the list is
left empty. It holds the records afterwards exactly if no key failed (`Sorter.sort_failing`).
-/

namespace DataGrid.Sorter

variable {s : Sorter} {records : List Value} {e : ReadError}

/-- The key of a record cannot be read on one level, and can on all levels before. -/
def KeyFails (s : Sorter) (record : Value) (e : ReadError) : Prop :=
  ∃ above level below, s.keys = above ++ level :: below
    ∧ (∀ k ∈ above, ∃ v, k.1.read record = .ok v) ∧ level.1.read record = .error e

/-- The key of a record cannot be read, and those of all records before it can. -/
def FailsFirst (s : Sorter) (records : List Value) (e : ReadError) : Prop :=
  ∃ before record after, records = before ++ record :: after
    ∧ (∀ r ∈ before, ∀ k ∈ s.keys, ∃ v, k.1.read r = .ok v) ∧ s.KeyFails record e

theorem keyOf_eq_error {record : Value} : s.keyOf record = .error e ↔ s.KeyFails record e :=
  Outcome.mapM_eq_error

theorem exists_keyOf_iff {record : Value} :
    (∃ key, s.keyOf record = .ok key) ↔ ∀ k ∈ s.keys, ∃ v, k.1.read record = .ok v := by
  constructor
  · rintro ⟨key, h⟩ k hk
    obtain ⟨v, -, read⟩ := Outcome.exists_of_mapM_eq_ok h hk
    exact ⟨v, read⟩
  · exact Outcome.exists_mapM_eq_ok

/-- Keys are read as long as none fails. -/
theorem keyed_eq_error : s.keyed records = .error e ↔ s.FailsFirst records e := by
  have paired {record : Value} :
      (∃ pair, (do return (← s.keyOf record, record) : Except ReadError _) = .ok pair)
        ↔ ∀ k ∈ s.keys, ∃ v, k.1.read record = .ok v := by
    rw [← exists_keyOf_iff]
    cases s.keyOf record <;> simp [bind, Except.bind, pure, Except.pure]
  have failed {record : Value} :
      (do return (← s.keyOf record, record) : Except ReadError (List Value × Value)) = .error e
        ↔ s.KeyFails record e := by
    rw [← keyOf_eq_error]
    cases s.keyOf record <;> simp [bind, Except.bind, pure, Except.pure]
  rw [keyed, Outcome.mapM_eq_error, FailsFirst]
  simp only [paired, failed]

/-- Without a level no key fails. -/
theorem not_failsFirst_of_isEmpty (h : s.isEmpty = true) : ¬ s.FailsFirst records e := by
  rintro ⟨before, record, after, -, -, above, level, below, hkeys, -⟩
  rw [isEmpty, hkeys, List.isEmpty_iff] at h
  exact List.append_ne_nil_of_right_ne_nil above (List.cons_ne_nil level below) h

/-- A sort gives the records again if no key fails, and else nothing. -/
theorem sort_cases (s : Sorter) (records : List Value) :
    (∃ sorted, s.sort records = ⟨sorted, none⟩ ∧ sorted.Perm records
        ∧ ∀ e, ¬ (1 < records.length ∧ s.FailsFirst records e))
      ∨ ∃ e, s.sort records = ⟨[], some e⟩ ∧ 1 < records.length ∧ s.FailsFirst records e := by
  by_cases idle : s.isEmpty = true ∨ records.length < 2
  · refine .inl ⟨records, by rw [sort, if_pos (by simpa using idle)], .refl _, ?_⟩
    rintro e ⟨several, fails⟩
    rcases idle with unsorted | few
    · exact not_failsFirst_of_isEmpty unsorted fails
    · omega
  · have reading : (s.isEmpty || decide (records.length < 2)) ≠ true := by simpa using idle
    have several : 1 < records.length := by
      have := (not_or.1 idle).2
      omega
    cases hkeyed : s.keyed records with
    | ok pairs =>
      have sorted : s.sort records = ⟨(Sorting.arrange (fun a b => s.compare a.1 b.1)
          pairs).map Prod.snd, none⟩ := by rw [sort, if_neg reading, hkeyed]
      refine .inl ⟨_, sorted, sort_perm sorted, ?_⟩
      rintro e ⟨-, fails⟩
      rw [keyed_eq_error.2 fails] at hkeyed
      cases hkeyed
    | error e =>
      have failed : s.sort records = ⟨[], some e⟩ := by rw [sort, if_neg reading, hkeyed]
      exact .inr ⟨e, failed, several, keyed_eq_error.1 hkeyed⟩

/-- The first key that fails is the only one. -/
theorem FailsFirst.unique {e' : ReadError} (h : s.FailsFirst records e)
    (h' : s.FailsFirst records e') : e = e' :=
  Except.error.inj ((keyed_eq_error.2 h).symm.trans (keyed_eq_error.2 h'))

/-- A sort of two or more records fails as the first key that fails. A sort that fails leaves an
empty list, and one that does not leaves the records. -/
theorem sort_failing (s : Sorter) (records : List Value) :
    (∀ e, (s.sort records).error = some e ↔ 1 < records.length ∧ s.FailsFirst records e)
      ∧ ((s.sort records).records.Perm records ↔ (s.sort records).error = none)
      ∧ ((s.sort records).records = [] ↔ records = [] ∨ (s.sort records).error ≠ none) := by
  rcases sort_cases s records with ⟨sorted, hsort, perm, sound⟩ | ⟨e, hsort, several, fails⟩
  · rw [hsort]
    refine ⟨fun e => ⟨fun h => (nomatch h), fun h => absurd h (sound e)⟩,
      ⟨fun _ => rfl, fun _ => perm⟩, ?_⟩
    simp only [ne_eq, not_true, or_false]
    exact ⟨fun h => List.perm_nil.1 (h ▸ perm).symm, fun h => List.perm_nil.1 (h ▸ perm)⟩
  · rw [hsort]
    refine ⟨fun e' => ⟨?_, ?_⟩, ⟨?_, fun h => (nomatch h)⟩, ⟨fun _ => .inr (by simp), fun _ => rfl⟩⟩
    · rintro ⟨⟩
      exact ⟨several, fails⟩
    · exact fun h => congrArg some (fails.unique h.2)
    · intro perm
      rw [List.nil_perm.1 perm] at several
      cases several

/-- A record that is null between two others costs them both. -/
theorem sort_failing_empties :
    let shape := Shape.mk "Member" [Field.plain "team" .string]
    let member (team : String) := Value.object [("team", .string team)]
    let records := [member "b", .null, member "a"]
    ∃ s r, (make [Sorting.on "team"]).run.run (Resolver.fresh shape false) = (.ok s, r)
      ∧ (s.sort records).error = some (.nullReference "team")
      ∧ (s.sort records).records ≠ records ∧ (s.sort records).records = [] := by
  intro shape member records
  exact ⟨⟨[(⟨"team", [.member "team" .string true], .string, true, false⟩, false)]⟩, _, rfl, rfl,
    (nomatch ·), rfl⟩

end DataGrid.Sorter
