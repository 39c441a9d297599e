import DataGrid.Accessor.Resolve

/-!
# Resolving with a memory

A `Resolver` resolves paths of one shape and remembers those that it has resolved.

* `Resolver.lookup` looks a path up before it resolves it, and remembers successes only.
* `Resolver.resolveWith` changes an accessor that was resolved.
* `Resolver.Sound` says that every remembered accessor is the one its path resolves to; `lookup`
  keeps it (`lookup_sound`), and then answers as `Accessor.ofPath` does (`lookup_answer`).
-/

namespace DataGrid

/-- A shape whose paths are resolved, and what is remembered of them. -/
structure Resolver where
  /-- the shape of the records -/
  shape : Shape
  /-- whether a null on the way is read as null -/
  guardNulls : Bool
  /-- the accessors of the paths resolved so far -/
  known : List (String × Accessor)

/-- Work that resolves paths and may not compile. -/
abbrev Resolving (α : Type) := ExceptT CompileError (StateM Resolver) α

namespace Resolver

/-- A resolver that remembers nothing. -/
def fresh (shape : Shape) (guardNulls : Bool) : Resolver := ⟨shape, guardNulls, []⟩

/-- The resolver after a path was resolved. -/
def remember (r : Resolver) (path : String) (a : Accessor) : Resolver :=
  { r with known := (path, a) :: r.known }

/-- Resolves a path: the answer, and the resolver after it. -/
def lookup (r : Resolver) (path : String) : Except CompileError Accessor × Resolver :=
  match r.known.lookup path with
  | some a => (.ok a, r)
  | none =>
    match Accessor.ofPath r.shape r.guardNulls path with
    | .ok a => (.ok a, r.remember path a)
    | .error e => (.error e, r)

/-- Resolves a path. -/
def resolve (path : String) : Resolving Accessor := ExceptT.mk fun r => r.lookup path

/-- Resolves a path and changes the accessor; what is remembered of the path stays. -/
def resolveWith (path : String) (post : Accessor → Accessor) : Resolving Accessor := do
  return post (← resolve path)

/-- Every remembered accessor is the one its path resolves to. -/
def Sound (r : Resolver) : Prop :=
  ∀ path a, r.known.lookup path = some a → Accessor.ofPath r.shape r.guardNulls path = .ok a

theorem sound_fresh (shape : Shape) (guardNulls : Bool) : (fresh shape guardNulls).Sound := by
  intro path a h
  simp [fresh] at h

/-- A sound resolver answers as if it remembered nothing. -/
theorem lookup_answer {r : Resolver} (h : r.Sound) (path : String) :
    (r.lookup path).1 = Accessor.ofPath r.shape r.guardNulls path := by
  unfold lookup
  split
  next a hit => exact (h path a hit).symm
  next => split <;> simp_all

/-- Resolving keeps a resolver sound, and its shape and setting. -/
theorem lookup_sound {r : Resolver} (h : r.Sound) (path : String) :
    (r.lookup path).2.Sound ∧ (r.lookup path).2.shape = r.shape
      ∧ (r.lookup path).2.guardNulls = r.guardNulls := by
  unfold lookup
  split
  next => exact ⟨h, rfl, rfl⟩
  next =>
    split
    next a resolved =>
      refine ⟨?_, rfl, rfl⟩
      intro p b hit
      simp only [remember, List.lookup_cons] at hit ⊢
      split at hit
      next same =>
        cases hit
        rw [beq_iff_eq.1 same]
        exact resolved
      next => exact h p b hit
    next => exact ⟨h, rfl, rfl⟩

end Resolver

end DataGrid
