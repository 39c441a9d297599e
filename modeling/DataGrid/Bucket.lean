/-!
# Rows collected by key

`Bucket.collect` gathers rows under their keys: a row joins the first bucket whose key is the same,
and a row with a new key opens a bucket at the end. A bucket keeps the key of its first row.
-/

namespace DataGrid.Bucket

variable {κ α : Type} (same : κ → κ → Bool)

/-- Puts a row under its key. -/
def add (key : κ) (row : α) : List (κ × List α) → List (κ × List α)
  | [] => [(key, [row])]
  | (k, rows) :: rest =>
    if same k key then (k, rows ++ [row]) :: rest else (k, rows) :: add key row rest

/-- The buckets of rows with their keys. -/
def collect (rows : List (κ × α)) : List (κ × List α) :=
  rows.foldl (fun buckets row => add same row.1 row.2 buckets) []

/-! ## Small facts -/

/-- A row more is in the buckets, and nothing else changes but the order. -/
theorem flatMap_add_perm (key : κ) (row : α) (buckets : List (κ × List α)) :
    ((add same key row buckets).flatMap Prod.snd).Perm (row :: buckets.flatMap Prod.snd) := by
  induction buckets with
  | nil => exact .refl _
  | cons bucket rest ih =>
    unfold add
    split
    · simp
    · exact (List.Perm.append_left _ ih).trans List.perm_middle

end DataGrid.Bucket
