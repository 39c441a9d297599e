/-!
# Named members in key order

An object's members are a list of pairs whose keys ascend, each key once.

* `Members.insert` puts a value under a key, replacing the one that was there.
* `Members.ofList` inserts one pair after another, so the last value of a repeated key stays.
* `List.lookup` reads the value under a key.
-/

namespace DataGrid

/-- Pairs of a key and a value. -/
abbrev Members (α : Type) := List (String × α)

namespace Members

variable {α : Type}

/-- Puts a value under a key at the key's place in the order. -/
def insert (key : String) (value : α) : Members α → Members α
  | [] => [(key, value)]
  | (k, v) :: rest =>
    if key < k then (key, value) :: (k, v) :: rest
    else if key = k then (key, value) :: rest
    else (k, v) :: insert key value rest

/-- The members that pairs in any order give. -/
def ofList (pairs : List (String × α)) : Members α :=
  pairs.foldl (fun members pair => insert pair.1 pair.2 members) []

end Members

end DataGrid
