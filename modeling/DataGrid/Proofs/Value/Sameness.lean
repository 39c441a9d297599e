import DataGrid.Store

/-!
# Sameness of keys

* `Value.same` is an equivalence (`same_comm`, `same_trans`), and so are the sameness of keys after
  `Value.groupKey` (`Grouping.sameKey_equivalence`) and that of tuples of keys
  (`Store.sameTuple_equivalence`).
* A value is *exact* if it holds no double, list or record. On exact values sameness is equality
  (`same_eq_true_iff`), and an exact value is its own group key (`groupKey_of_isExact`).
-/

namespace DataGrid

namespace Value

/-- Whether a value is a null, a truth value, an integer, a text, a moment, a span or an
identifier. -/
def isExact : Value → Bool
  | float _ | array _ | object _ => false
  | _ => true

/-- Whether a value is a double. -/
def isDouble : Value → Bool
  | float _ => true
  | _ => false

/-- No exact value is a double. -/
theorem isDouble_of_isExact {v : Value} (h : v.isExact = true) : v.isDouble = false := by
  cases v <;> first
    | rfl
    | cases h

/-- So it is its own key. -/
theorem groupKey_of_isExact {v : Value} (h : v.isExact = true) : v.groupKey = v := by
  cases v <;> first | rfl | contradiction

/-- An exact value is the same as itself only. -/
theorem same_eq_true_iff {v w : Value} (h : v.isExact = true) : v.same w = true ↔ v = w := by
  cases v <;> first | contradiction | (cases w <;> simp [same])

mutual

theorem same_comm : (v w : Value) → v.same w = w.same v
  | null, w | bool _, w | int _, w | string _, w | dateTime _, w | span _, w | uuid _, w => by
    cases w <;> simp [same, Bool.beq_comm]
  | float x, w => by cases w <;> simp [same, Binary64.same_comm x]
  | array items, w => by
    cases w with
    | array others => exact sameItems_comm items others
    | _ => rfl
  | object members, w => by
    cases w with
    | object others => exact sameMembers_comm members others
    | _ => rfl

theorem sameItems_comm : (as bs : List Value) → sameItems as bs = sameItems bs as
  | [], bs => by cases bs <;> rfl
  | _ :: _, [] => rfl
  | a :: as, b :: bs => by rw [sameItems, sameItems, same_comm a b, sameItems_comm as bs]

theorem sameMembers_comm : (as bs : List (String × Value)) →
    sameMembers as bs = sameMembers bs as
  | [], bs => by cases bs <;> rfl
  | _ :: _, [] => rfl
  | (k, a) :: as, (l, b) :: bs => by
    rw [sameMembers, sameMembers, same_comm a b, sameMembers_comm as bs, Bool.beq_comm]

end

mutual

theorem same_trans : (u v w : Value) → u.same v = true → v.same w = true → u.same w = true
  | null, v, w | bool _, v, w | int _, v, w | string _, v, w | dateTime _, v, w | span _, v, w
  | uuid _, v, w => by
    rw [same_eq_true_iff rfl]
    rintro rfl
    exact id
  | float x, v, w => by
    cases v with
    | float y =>
      cases w with
      | float z => exact Binary64.same_trans
      | _ => exact fun _ h => nomatch h
    | _ => exact fun h => nomatch h
  | array items, v, w => by
    cases v with
    | array others =>
      cases w with
      | array rest => exact sameItems_trans items others rest
      | _ => exact fun _ h => nomatch h
    | _ => exact fun h => nomatch h
  | object members, v, w => by
    cases v with
    | object others =>
      cases w with
      | object rest => exact sameMembers_trans members others rest
      | _ => exact fun _ h => nomatch h
    | _ => exact fun h => nomatch h

/-- What is the same as the same is the same, for items one by one. -/
theorem sameItems_trans : (as bs cs : List Value) → sameItems as bs = true →
    sameItems bs cs = true → sameItems as cs = true
  | [], [], _ => fun _ h => h
  | a :: as, b :: bs, c :: cs => by
    simp only [sameItems, Bool.and_eq_true]
    rintro ⟨h, hs⟩ ⟨h', hs'⟩
    exact ⟨same_trans a b c h h', sameItems_trans as bs cs hs hs'⟩
  | [], _ :: _, _ => fun h => nomatch h
  | _ :: _, [], _ => fun h => nomatch h
  | _ :: _, _ :: _, [] => fun _ h => nomatch h

theorem sameMembers_trans : (as bs cs : List (String × Value)) → sameMembers as bs = true →
    sameMembers bs cs = true → sameMembers as cs = true
  | [], [], _ => fun _ h => h
  | (k, a) :: as, (l, b) :: bs, (m, c) :: cs => by
    simp only [sameMembers, Bool.and_eq_true, beq_iff_eq]
    rintro ⟨⟨hk, h⟩, hs⟩ ⟨⟨hl, h'⟩, hs'⟩
    exact ⟨⟨hk.trans hl, same_trans a b c h h'⟩, sameMembers_trans as bs cs hs hs'⟩
  | [], _ :: _, _ => fun h => nomatch h
  | _ :: _, [], _ => fun h => nomatch h
  | _ :: _, _ :: _, [] => fun _ h => nomatch h

end

/-! ### Values without doubles -/

mutual

/-- Whether a value is a double or holds one. -/
def holdsDouble : Value → Bool
  | float _ => true
  | array items => itemsHoldDouble items
  | object members => membersHoldDouble members
  | _ => false

/-- Whether one of the items of a list holds a double. -/
def itemsHoldDouble : List Value → Bool
  | [] => false
  | a :: as => a.holdsDouble || itemsHoldDouble as

/-- Whether one of the members of a record holds a double. -/
def membersHoldDouble : List (String × Value) → Bool
  | [] => false
  | (_, a) :: as => a.holdsDouble || membersHoldDouble as

end

/-- A value that holds no double is its own key. -/
theorem groupKey_of_holdsDouble {v : Value} (h : v.holdsDouble = false) : v.groupKey = v := by
  cases v <;> first | rfl | contradiction

mutual

/-- A value without doubles is the same as itself only. -/
theorem eq_of_same : (v w : Value) → v.holdsDouble = false → v.same w = true → v = w
  | null, w, _, h | bool _, w, _, h | int _, w, _, h | string _, w, _, h | dateTime _, w, _, h
  | span _, w, _, h | uuid _, w, _, h => (same_eq_true_iff rfl).1 h
  | float _, _, free, _ => nomatch free
  | array items, w, free, h => by
    cases w with
    | array others => rw [eq_of_sameItems items others free h]
    | _ => cases h
  | object members, w, free, h => by
    cases w with
    | object others => rw [eq_of_sameMembers members others free h]
    | _ => cases h

/-- Items without doubles are the same only if they are equal. -/
theorem eq_of_sameItems : (as bs : List Value) → itemsHoldDouble as = false →
    sameItems as bs = true → as = bs
  | [], [], _, _ => rfl
  | a :: as, b :: bs, free, h => by
    simp only [itemsHoldDouble, Bool.or_eq_false_iff] at free
    simp only [sameItems, Bool.and_eq_true] at h
    rw [eq_of_same a b free.1 h.1, eq_of_sameItems as bs free.2 h.2]
  | [], _ :: _, _, h => nomatch h
  | _ :: _, [], _, h => nomatch h

theorem eq_of_sameMembers : (as bs : List (String × Value)) → membersHoldDouble as = false →
    sameMembers as bs = true → as = bs
  | [], [], _, _ => rfl
  | (k, a) :: as, (l, b) :: bs, free, h => by
    simp only [membersHoldDouble, Bool.or_eq_false_iff] at free
    simp only [sameMembers, Bool.and_eq_true, beq_iff_eq] at h
    rw [h.1.1, eq_of_same a b free.1 h.1.2, eq_of_sameMembers as bs free.2 h.2]
  | [], _ :: _, _, h => nomatch h
  | _ :: _, [], _, h => nomatch h

end

end Value

/-! ### Keys and tuples of keys -/

/-- Keys that are grouped together form classes. -/
theorem Grouping.sameKey_equivalence :
    Equivalence fun a b : Value => Grouping.sameKey a b = true where
  refl a := Value.same_refl a.groupKey
  symm {a b} h := by rwa [sameKey, Value.same_comm]
  trans h h' := Value.same_trans _ _ _ h h'

/-- Tuples that are grouped together form classes. -/
theorem Store.sameTuple_equivalence :
    Equivalence fun a b : List Value => Store.sameTuple a b = true where
  refl a := Value.sameItems_refl _
  symm {a b} h := by rwa [sameTuple, Value.sameItems_comm]
  trans h h' := Value.sameItems_trans _ _ _ h h'

/-- Exact keys are grouped together only if they are equal. -/
theorem Grouping.sameKey_eq_true_iff {a b : Value} (ha : a.isExact = true)
    (hb : b.isExact = true) : Grouping.sameKey a b = true ↔ a = b := by
  rw [sameKey, Value.groupKey_of_isExact ha, Value.groupKey_of_isExact hb,
    Value.same_eq_true_iff ha]

/-- Keys without doubles are grouped together only if they are equal. -/
theorem Grouping.eq_of_sameKey {a b : Value} (ha : a.holdsDouble = false)
    (hb : b.holdsDouble = false) (h : Grouping.sameKey a b = true) : a = b := by
  rw [sameKey, Value.groupKey_of_holdsDouble ha, Value.groupKey_of_holdsDouble hb] at h
  exact Value.eq_of_same a b ha h

end DataGrid
