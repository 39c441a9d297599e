/-!
# Settings

`Settings` holds what compiling filters, aggregating and planning have in common.
-/

namespace DataGrid

/-- How filters and paths are compiled. -/
structure Settings where
  /-- whether a null on the way of a path is read as null -/
  guardNulls : Bool
  /-- whether texts are compared in lower case -/
  stringToLower : Bool
  /-- whether values without an equality of their own may be compared as values -/
  supportsEquals : Bool
  deriving DecidableEq

namespace Settings

/-- What holds when nothing is said. -/
def standard : Settings := ⟨false, false, true⟩

/-- The settings with null guarding on or off. -/
def guarding (s : Settings) (on : Bool) : Settings := { s with guardNulls := on }

/-- The settings with folding of letter case on or off. -/
def folding (s : Settings) (on : Bool) : Settings := { s with stringToLower := on }

end Settings

end DataGrid
