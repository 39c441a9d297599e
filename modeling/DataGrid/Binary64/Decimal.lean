import DataGrid.Binary64.Round
import DataGrid.Integer

/-!
# Doubles in decimal

* `shortest` chooses the digits of a finite double: the fewest that read back to it, of those the
  nearest to its value, and of two equally near the one that the `Tie` rule names.
* `Layout` holds what a text format decides about writing those digits, and `Layout.render` writes
  them.
* `ofDecimal` reads digits and a power of ten, rounding once, and `ofText?` reads decimal text.
-/

namespace DataGrid

/-- The number `digits · 10 ^ exponent`. -/
structure Decimal where
  /-- the digits, read as a natural -/
  digits : Nat
  /-- the power of ten of the last digit -/
  exponent : Int
  deriving DecidableEq

namespace Decimal

/-- Moves zeros at the end of the digits into the exponent, at most as many as `fuel`. -/
def trim : Nat → Decimal → Decimal
  | 0, d => d
  | fuel + 1, d =>
    if d.digits ≠ 0 ∧ d.digits % 10 = 0 then trim fuel ⟨d.digits / 10, d.exponent + 1⟩ else d

end Decimal

/-- Which of two equally near decimals stands for a value. -/
inductive Tie where
  /-- the one whose last digit is even -/
  | toEven
  /-- the one of greater magnitude -/
  | away
  deriving DecidableEq

namespace Binary64

/-- The number of decimal digits of a positive natural, and `0` for zero. -/
def digitCount (n : Nat) : Nat := if n = 0 then 0 else (Nat.toDigits 10 n).length

/-- The exponent of the leading decimal digit of `num / den`, both positive. -/
def leadingExponent (num den : Nat) : Int :=
  if den ≤ num then (digitCount (num / den) : Int) - 1
  else -(digitCount ((den + num - 1) / num - 1) : Int)

/-- The positive reals that round to one double, as naturals over a common denominator. -/
structure Interval where
  /-- the greatest lower bound -/
  low : Nat
  /-- the double itself -/
  value : Nat
  /-- the least upper bound -/
  high : Nat
  /-- the common denominator -/
  den : Nat
  /-- whether the two bounds round to the double as well -/
  closed : Bool

namespace Interval

/-- Whether the number with this numerator over the same denominator lies in the interval. -/
def contains (i : Interval) (num : Nat) : Bool :=
  if i.closed then decide (i.low ≤ num ∧ num ≤ i.high)
  else decide (i.low < num ∧ num < i.high)

/-- The interval with all numbers multiplied, and the denominator too. -/
def scale (i : Interval) (factor : Nat) : Interval :=
  ⟨i.low * factor, i.value * factor, i.high * factor, i.den * factor, i.closed⟩

/-- The neighbour of the value on the grid of the multiples of `10 ^ exponent` that lies in the
interval, if one does; of two the nearer. -/
def onGrid? (i : Interval) (tie : Tie) (exponent : Int) : Option Decimal :=
  let j := i.scale (Integer.powerOfTen (-exponent).toNat)
  let unit := i.den * Integer.powerOfTen exponent.toNat
  let below := j.value / unit
  let above := below + 1
  match j.contains (below * unit), j.contains (above * unit) with
  | false, false => none
  | true, false => some ⟨below, exponent⟩
  | false, true => some ⟨above, exponent⟩
  | true, true =>
    match compare (2 * j.value) ((below + above) * unit), tie with
    | .lt, _ => some ⟨below, exponent⟩
    | .gt, _ => some ⟨above, exponent⟩
    | .eq, .away => some ⟨above, exponent⟩
    | .eq, .toEven => some ⟨if below % 2 = 0 then below else above, exponent⟩

end Interval

/-- The reals that round to the absolute value of a finite double that is not zero. Below a power
of two the doubles lie twice as dense, so the lower half gap is half as wide there. -/
def interval (x : Binary64) : Interval :=
  let s := x.significand
  let below := if s = fractionLimit ∧ -1074 < x.exponent then 1 else 2
  let up := (x.exponent - 2).toNat
  ⟨(4 * s - below) <<< up, (4 * s) <<< up, (4 * s + 2) <<< up, 1 <<< (2 - x.exponent).toNat,
    s % 2 == 0⟩

/-- The fewest decimal digits that read back to the absolute value of a finite double. Seventeen
digits are enough for every double. -/
def shortest (tie : Tie) (x : Binary64) : Decimal :=
  if x.isZero then ⟨0, 0⟩
  else
    let i := x.interval
    let leading := leadingExponent i.value i.den
    let chosen := (List.range 17).findSome? fun n : Nat => i.onGrid? tie (leading - n)
    (chosen.getD ⟨0, 0⟩).trim 17

/-- What a text format decides about the digits of a double. -/
structure Layout where
  /-- which of two equally near digit strings is written -/
  tie : Tie
  /-- whether an integral value keeps a point and a zero -/
  pointZero : Bool
  /-- the exponents of the leading digit, least and first beyond, that are written without a power
  of ten; all of them if absent -/
  positional : Option (Int × Int)
  /-- the text of a NaN -/
  nan : String
  /-- the text of the positive infinity -/
  infinity : String

namespace Layout

/-- The digits with a point and no power of ten. -/
def positionalText (l : Layout) (d : Decimal) : List Char :=
  let digits := Nat.toDigits 10 d.digits
  let size : Int := digits.length + d.exponent
  if 0 ≤ d.exponent then
    digits ++ List.replicate d.exponent.toNat '0' ++ (if l.pointZero then ['.', '0'] else [])
  else if 0 < size then
    digits.take size.toNat ++ '.' :: digits.drop size.toNat
  else '0' :: '.' :: (List.replicate (-size).toNat '0' ++ digits)

/-- The digits with a point after the first one, and a signed power of ten. -/
def scientificText (d : Decimal) : List Char :=
  let digits := Nat.toDigits 10 d.digits
  let leading : Int := digits.length - 1 + d.exponent
  let fraction := match digits.drop 1 with
    | [] => []
    | rest => '.' :: rest
  digits.take 1 ++ fraction ++ ['e', if leading < 0 then '-' else '+']
    ++ Nat.toDigits 10 leading.natAbs

/-- The text of the absolute value that a decimal gives. -/
def decimalText (l : Layout) (d : Decimal) : List Char :=
  match l.positional with
  | none => l.positionalText d
  | some (least, beyond) =>
    let leading : Int := (Nat.toDigits 10 d.digits).length - 1 + d.exponent
    if d.digits = 0 ∨ (least ≤ leading ∧ leading < beyond) then l.positionalText d
    else scientificText d

/-- The text of a double. A negative zero keeps its sign, a NaN has none. -/
def render (l : Layout) (x : Binary64) : String :=
  if x.isNaN then l.nan
  else
    let sign := if x.negative then "-" else ""
    if x.isFinite then sign ++ String.ofList (l.decimalText (x.shortest l.tie))
    else sign ++ l.infinity

end Layout

/-! ## Reading -/

/-- The double nearest to `±digits · 10 ^ exponent`. Exponents far outside the range of doubles are
decided by the leading digit alone. -/
def ofDecimal (negative : Bool) (d : Decimal) : Binary64 :=
  let leading : Int := digitCount d.digits + d.exponent
  if d.digits = 0 ∨ leading < -330 then zero negative
  else if 320 < leading then infinity negative
  else
    ofRatio negative (d.digits * Integer.powerOfTen d.exponent.toNat)
      (Integer.powerOfTen (-d.exponent).toNat)

/-- A run of decimal digits at the start of a text, and what follows it. -/
def digitRun (text : List Char) : List Char × List Char := text.span Char.isDigit

/-- The power of ten that `e` and an optional sign introduce at the start of a text, and what
follows it; no power of ten is `0`. An `e` without digits is refused. -/
def exponent? : List Char → Option (Int × List Char)
  | c :: rest =>
    if c = 'e' ∨ c = 'E' then
      let (negative, rest) := match rest with
        | '-' :: rest => (true, rest)
        | '+' :: rest => (false, rest)
        | rest => (false, rest)
      match digitRun rest with
      | ([], _) => none
      | (digits, rest) =>
        let n : Int := Nat.ofDigitChars 10 digits 0
        some (if negative then -n else n, rest)
    else some (0, c :: rest)
  | [] => some (0, [])

/-- Digits with an optional point among or around them and an optional power of ten, the whole of a
text. -/
def unsignedDecimal? (text : List Char) : Option Decimal :=
  let (whole, rest) := digitRun text
  let (fraction, rest) := match rest with
    | '.' :: rest => digitRun rest
    | rest => ([], rest)
  if whole.isEmpty && fraction.isEmpty then none
  else
    match exponent? rest with
    | some (e, []) => some ⟨Nat.ofDigitChars 10 (whole ++ fraction) 0, e - fraction.length⟩
    | _ => none

/-- Reads an optional sign and then a decimal, `inf`, `infinity` or `nan` in any letter case. -/
def ofText? (text : List Char) : Option Binary64 :=
  let (negative, body) := match text with
    | '-' :: rest => (true, rest)
    | '+' :: rest => (false, rest)
    | rest => (false, rest)
  match unsignedDecimal? body with
  | some d => some (ofDecimal negative d)
  | none =>
    match String.ofList (body.map Char.toLower) with
    | "inf" | "infinity" => some (infinity negative)
    | "nan" => some nan
    | _ => none

end Binary64

end DataGrid
