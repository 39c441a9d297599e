import DataGrid.Bucket
import Mathlib.Data.List.Perm.Basic
import Mathlib.Data.List.Pairwise

/-!
# What collecting by key gives

* `Bucket.firsts` keeps of a list of keys the first of every class.
* `Bucket.collect_eq`: the buckets are the first keys, each with the rows whose keys are the same,
  in their order. All else about buckets follows from it.
* `firsts_filter` and `firsts_map_firsts` say how the first keys of a part of the rows, and of
  coarser keys, are found.
-/

namespace DataGrid.Bucket

variable {κ ι α : Type} (same : κ → κ → Bool)

/-- The first key of every class, in order of appearance. -/
def firsts : List κ → List κ
  | [] => []
  | k :: rest => k :: (firsts rest).filter fun l => !same k l

/-- The rows whose keys are the same as a key. -/
def rowsOf (key : κ) (pairs : List (κ × α)) : List α :=
  (pairs.filter fun pair => same key pair.1).map Prod.snd

/-! ### First keys -/

theorem firsts_sublist (ks : List κ) : (firsts same ks).Sublist ks := by
  induction ks with
  | nil => exact .slnil
  | cons k rest ih => exact (List.filter_sublist.trans ih).cons_cons k

theorem mem_of_mem_firsts {k : κ} {ks : List κ} (h : k ∈ firsts same ks) : k ∈ ks :=
  (firsts_sublist same ks).subset h

/-- Keys of one class have one first key. -/
theorem firsts_cons_of_same {k : κ} {ks : List κ} (h : ∀ l ∈ ks, same k l = true) :
    firsts same (k :: ks) = [k] := by
  rw [firsts, List.filter_eq_nil_iff.2]
  intro l hl
  simp [h l (mem_of_mem_firsts same hl)]

theorem pairwise_firsts (ks : List κ) :
    (firsts same ks).Pairwise fun k l => same k l = false := by
  induction ks with
  | nil => exact .nil
  | cons k rest ih =>
    refine List.pairwise_cons.2 ⟨fun l h => ?_, ih.filter _⟩
    simpa using (List.mem_filter.1 h).2

variable {same}

section Classes

variable (eqv : Equivalence fun k l => same k l = true)
include eqv

theorem same_congr_left {k l : κ} (h : same k l = true) (m : κ) : same k m = same l m := by
  rw [Bool.eq_iff_iff]
  exact ⟨eqv.trans (eqv.symm h), eqv.trans h⟩

theorem same_congr_right {k l : κ} (h : same k l = true) (m : κ) : same m k = same m l := by
  rw [Bool.eq_iff_iff]
  exact ⟨fun h' => eqv.trans h' h, fun h' => eqv.trans h' (eqv.symm h)⟩

theorem not_same_symm {k l : κ} (h : same k l = false) : same l k = false := by
  cases hlk : same l k with
  | false => rfl
  | true => exact absurd (eqv.symm hlk) (by simp [h])

theorem exists_mem_firsts {k : κ} {ks : List κ} (h : k ∈ ks) :
    ∃ l ∈ firsts same ks, same l k = true := by
  induction ks with
  | nil => cases h
  | cons m rest ih =>
    rcases hm : same m k with _ | _
    · rcases List.mem_cons.1 h with rfl | h
      · exact absurd (eqv.refl k) (by simp [hm])
      · obtain ⟨l, hl, hlk⟩ := ih h
        refine ⟨l, List.mem_cons_of_mem _ (List.mem_filter.2 ⟨hl, ?_⟩), hlk⟩
        -- `l` is not the same as `m`, or `m` would be the same as `k`
        cases hml : same m l with
        | false => rfl
        | true => exact absurd (eqv.trans hml hlk) (by simp [hm])
    · exact ⟨m, List.mem_cons_self, hm⟩

/-- First keys that are the same are equal. -/
theorem eq_of_mem_firsts {k l : κ} {ks : List κ} (hk : k ∈ firsts same ks)
    (hl : l ∈ firsts same ks) (h : same k l = true) : k = l := by
  by_contra hne
  have apart : (firsts same ks).Pairwise fun k l => ¬ same k l = true :=
    (pairwise_firsts same ks).imp fun h => by simp [h]
  have : Std.Symm fun k l => ¬ same k l = true := ⟨fun _ _ h h' => h (eqv.symm h')⟩
  exact apart.forall hk hl hne h

/-- A key is the same as exactly one first key. -/
theorem countP_firsts {k : κ} {ks : List κ} (h : k ∈ ks) :
    (firsts same ks).countP (same · k) = 1 := by
  induction ks with
  | nil => cases h
  | cons m rest ih =>
    rw [firsts, List.countP_cons, List.countP_filter]
    cases hm : same m k with
    | true =>
      -- any further key that is the same as `k` is the same as `m`, and dropped
      have none : (firsts same rest).countP (fun l => same l k && !same m l) = 0 := by
        rw [List.countP_eq_zero]
        intro l _ hl
        obtain ⟨hlk, hml⟩ := Bool.and_eq_true_iff.1 hl
        rw [eqv.trans hm (eqv.symm hlk)] at hml
        cases hml
      rw [none, if_pos rfl]
    | false =>
      rcases List.mem_cons.1 h with rfl | h
      · exact absurd (eqv.refl k) (by simp [hm])
      -- no key that is the same as `k` is dropped, as `m` is not
      · have keep : (fun l => same l k && !same m l) = fun l => same l k := by
          funext l
          cases hlk : same l k with
          | false => rfl
          | true =>
            cases hml : same m l with
            | false => rfl
            | true => exact absurd (eqv.trans hml hlk) (by simp [hm])
        rw [keep, ih h, if_neg Bool.false_ne_true]

end Classes

/-- The first keys of the keys with a property of their classes. -/
theorem firsts_filter {p : κ → Bool} (hp : ∀ k l, same k l = true → p k = p l) (ks : List κ) :
    firsts same (ks.filter p) = (firsts same ks).filter p := by
  induction ks with
  | nil => rfl
  | cons k rest ih =>
    cases hk : p k with
    | true =>
      rw [List.filter_cons_of_pos hk, firsts, ih, firsts, List.filter_cons_of_pos hk,
        List.filter_comm]
    | false =>
      have drop : ∀ l, (p l && !same k l) = p l := by
        intro l
        cases hl : same k l with
        | false => simp
        | true => simp [← hp k l hl, hk]
      rw [List.filter_cons_of_neg (by simp [hk]), ih, firsts,
        List.filter_cons_of_neg (by simp [hk]), List.filter_filter]
      simp only [drop]

/-- Coarser keys have the same first ones in all keys as in the first keys. -/
theorem firsts_map_firsts {same' : ι → ι → Bool}
    (eqv : Equivalence fun k l => same' k l = true) {f : κ → ι}
    (hf : ∀ k l, same k l = true → same' (f k) (f l) = true) (ks : List κ) :
    firsts same' ((firsts same ks).map f) = firsts same' (ks.map f) := by
  induction ks with
  | nil => rfl
  | cons k rest ih =>
    have classes : ∀ i j, same' i j = true → (!same' (f k) i) = !same' (f k) j := fun i j h =>
      congrArg not (same_congr_right eqv h (f k))
    have drop : ∀ l, (!same' (f k) (f l) && !same k l) = !same' (f k) (f l) := by
      intro l
      cases hl : same k l with
      | false => simp
      | true => simp [hf k l hl]
    rw [firsts, List.map_cons, List.map_cons, firsts, firsts, ← firsts_filter classes,
      ← firsts_filter classes, List.filter_map, List.filter_filter]
    simp only [Function.comp_def, drop]
    rw [← Function.comp_def (fun i => !same' (f k) i) f, ← List.filter_map,
      firsts_filter classes, ih, ← firsts_filter classes]

/-! ### Keys that match -/

/-- Keys of which no two are the same match others of this kind one to one, if each is the same as
one of the others and the other way around. -/
theorem exists_matching (eqv : Equivalence fun k l => same k l = true) {ks ls : List κ}
    (apart : ks.Pairwise fun k l => same k l = false)
    (apart' : ls.Pairwise fun k l => same k l = false)
    (covers : ∀ k ∈ ks, ∃ l ∈ ls, same k l = true)
    (covers' : ∀ l ∈ ls, ∃ k ∈ ks, same k l = true) :
    ∃ ms, List.Forall₂ (same · · = true) ks ms ∧ ms.Perm ls := by
  induction ks generalizing ls with
  | nil =>
    have none : ls = [] := List.eq_nil_iff_forall_not_mem.2 fun l hl =>
      List.not_mem_nil (covers' l hl).choose_spec.1
    exact ⟨[], .nil, none ▸ .refl _⟩
  | cons k ks ih =>
    -- the key that the first one matches is taken out, and no other key is the same as it
    obtain ⟨l, hl, hkl⟩ := covers k List.mem_cons_self
    obtain ⟨before, after, rfl⟩ := List.append_of_mem hl
    have moved : (before ++ l :: after).Perm (l :: (before ++ after)) := List.perm_middle
    obtain ⟨others, apart'⟩ := List.pairwise_cons.1
      ((moved.pairwise_iff (not_same_symm eqv)).1 apart')
    obtain ⟨others', apart⟩ := List.pairwise_cons.1 apart
    have here : ∀ k' ∈ ks, ∃ l' ∈ before ++ after, same k' l' = true := by
      intro k' hk'
      obtain ⟨l', hl', same'⟩ := covers k' (List.mem_cons_of_mem k hk')
      rcases List.mem_cons.1 (moved.mem_iff.1 hl') with rfl | hl'
      · exact absurd (eqv.trans hkl (eqv.symm same')) (by simp [others' k' hk'])
      · exact ⟨l', hl', same'⟩
    have there : ∀ l' ∈ before ++ after, ∃ k' ∈ ks, same k' l' = true := by
      intro l' hl'
      obtain ⟨k', hk', same'⟩ := covers' l' (moved.mem_iff.2 (List.mem_cons_of_mem l hl'))
      rcases List.mem_cons.1 hk' with rfl | hk'
      · exact absurd (eqv.trans (eqv.symm hkl) same') (by simp [others l' hl'])
      · exact ⟨k', hk', same'⟩
    obtain ⟨ms, hms, perm⟩ := ih apart apart' here there
    exact ⟨l :: ms, .cons hkl hms, (perm.cons l).trans moved.symm⟩

/-- The first keys of keys in another order are the same as the first keys, in some order. -/
theorem exists_firsts_perm (eqv : Equivalence fun k l => same k l = true) {ks ls : List κ}
    (h : ks.Perm ls) :
    ∃ ms, List.Forall₂ (same · · = true) (firsts same ks) ms ∧ ms.Perm (firsts same ls) := by
  refine exists_matching eqv (pairwise_firsts same ks) (pairwise_firsts same ls)
    (fun k hk => ?_) fun l hl => ?_
  · obtain ⟨l, hl, hlk⟩ := exists_mem_firsts eqv (h.mem_iff.1 (mem_of_mem_firsts same hk))
    exact ⟨l, hl, eqv.symm hlk⟩
  · exact exists_mem_firsts eqv (h.mem_iff.2 (mem_of_mem_firsts same hl))

/-! ### Buckets -/

variable (same)

/-- Rows added to buckets of which the first is given: it takes the rows with its key, and the
others go to the buckets behind it. -/
theorem foldl_add_cons (pairs : List (κ × α)) (key : κ) (rows : List α)
    (buckets : List (κ × List α)) :
    pairs.foldl (fun buckets row => add same row.1 row.2 buckets) ((key, rows) :: buckets)
      = (key, rows ++ rowsOf same key pairs)
        :: (pairs.filter fun pair => !same key pair.1).foldl
          (fun buckets row => add same row.1 row.2 buckets) buckets := by
  induction pairs generalizing rows buckets with
  | nil => simp [rowsOf]
  | cons pair rest ih =>
    -- a row with the key stops at the first bucket, and any other goes past it
    cases h : same key pair.1 with
    | true => simp [add, h, ih, rowsOf]
    | false => simp [add, h, ih, rowsOf]

theorem collect_cons (key : κ) (row : α) (pairs : List (κ × α)) :
    collect same ((key, row) :: pairs)
      = (key, row :: rowsOf same key pairs)
        :: collect same (pairs.filter fun pair => !same key pair.1) := by
  rw [collect]
  rw [List.foldl_cons, add, foldl_add_cons]
  rfl

variable {same}

/-- The buckets of rows: the first key of every class, each with the rows of its class. -/
theorem collect_eq (eqv : Equivalence fun k l => same k l = true) (pairs : List (κ × α)) :
    collect same pairs
      = (firsts same (pairs.map Prod.fst)).map fun key => (key, rowsOf same key pairs) := by
  -- on the number of rows: the rows of the first key leave the rest shorter
  induction h : pairs.length using Nat.strongRecOn generalizing pairs with
  | _ n ih =>
    cases pairs with
    | nil => rfl
    | cons pair rest =>
      obtain ⟨key, row⟩ := pair
      have shorter : (rest.filter fun pair => !same key pair.1).length < n := by
        rw [← h, List.length_cons]
        exact Nat.lt_succ_of_le (List.length_filter_le _ _)
      have classes : ∀ k l, same k l = true → (!same key k) = !same key l := fun k l hkl =>
        congrArg not (same_congr_right eqv hkl key)
      rw [collect_cons, ih _ shorter _ rfl, List.map_cons, firsts, List.map_cons]
      congr 1
      · simp [rowsOf, eqv.refl key]
      · rw [← firsts_filter classes, List.filter_map]
        apply List.map_congr_left
        intro k hk
        obtain ⟨pair, hpair, rfl⟩ := List.mem_map.1 (mem_of_mem_firsts same hk)
        have apart : same key pair.1 = false := by simpa using (List.mem_filter.1 hpair).2
        have drop : ∀ l, (same pair.1 l && !same key l) = same pair.1 l := by
          intro l
          cases hl : same pair.1 l with
          | false => simp
          | true => simp [← classes _ _ hl, apart]
        simp [rowsOf, List.filter_filter, drop, not_same_symm eqv apart]

/-- Collecting loses, doubles and changes no row. -/
theorem flatMap_collect_perm (same : κ → κ → Bool) (pairs : List (κ × α)) :
    ((collect same pairs).flatMap Prod.snd).Perm (pairs.map Prod.snd) := by
  have grow : ∀ buckets : List (κ × List α),
      ((pairs.foldl (fun buckets row => add same row.1 row.2 buckets) buckets).flatMap
        Prod.snd).Perm (buckets.flatMap Prod.snd ++ pairs.map Prod.snd) := by
    induction pairs with
    | nil => intro buckets; simp
    | cons pair rest ih =>
      intro buckets
      rw [List.foldl_cons, List.map_cons]
      refine (ih _).trans (((flatMap_add_perm same pair.1 pair.2 buckets).append_right _).trans ?_)
      exact List.perm_middle.symm
  simpa [collect] using grow []

end DataGrid.Bucket
