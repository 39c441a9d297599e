import DataGrid.DateTime.Basic
import DataGrid.Integer

/-!
# The written form of a moment

`DateTime.text` writes `yyyy-mm-ddThh:mm:ss` and then the fraction of the second, absent if it is
zero and otherwise of three, six or nine digits, the fewest that are exact. A year outside `0` to
`9999` carries its sign. Nanoseconds that fill the second count for the next one, which is second 60
for a leap second.
-/

namespace DataGrid.DateTime

open Integer (padded)

/-- The text of a year: at least four digits, and a sign if four digits do not hold it. -/
def yearText (year : Int) : List Char :=
  if 0 ≤ year ∧ year ≤ 9999 then padded 4 year.natAbs
  else (if year < 0 then '-' else '+') :: padded 4 year.natAbs

/-- The text of a fraction of a second. -/
def fractionText (nano : Nat) : List Char :=
  if nano = 0 then []
  else if nano % 1000000 = 0 then '.' :: padded 3 (nano / 1000000)
  else if nano % 1000 = 0 then '.' :: padded 6 (nano / 1000)
  else '.' :: padded 9 nano

/-- The second as it is written. -/
def shownSecond (f : Fields) : Nat := f.second + f.nano / nanosPerSecond

/-- The written form of a moment. -/
def text (d : DateTime) : List Char :=
  let f := d.fields
  yearText f.year ++ '-' :: padded 2 f.month ++ '-' :: padded 2 f.day ++ 'T' :: padded 2 f.hour
    ++ ':' :: padded 2 f.minute ++ ':' :: padded 2 (shownSecond f)
    ++ fractionText (f.nano % nanosPerSecond)

end DataGrid.DateTime
