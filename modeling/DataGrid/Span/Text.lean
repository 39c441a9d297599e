import DataGrid.Span.Basic
import DataGrid.Text.Blank
import DataGrid.Text.Split

/-!
# The written form of a span

* `Span.text` writes `[-][d.]hh:mm:ss[.fffffff]`, the fraction in units of 100 nanoseconds.
* `Span.read` reads days, hours, minutes, seconds and a fraction with the same marks. Each part is a
  signed integer; hours, minutes and seconds are bounded from above. A fraction is scaled by its
  size in bytes, and one whose first nine characters take more than nine bytes has no scale.
-/

namespace DataGrid.Span

open Integer (padded)

/-- The written form of a span. -/
def text (a : Span) : List Char :=
  let nanos := a.nanos.natAbs
  let seconds := nanos / second.toNat
  let days := seconds / 86400
  let ticks := nanos % second.toNat / 100
  (if a.nanos < 0 then ['-'] else [])
    ++ (if 0 < days then Nat.toDigits 10 days ++ ['.'] else [])
    ++ padded 2 (seconds % 86400 / 3600) ++ ':' :: padded 2 (seconds % 3600 / 60)
    ++ ':' :: padded 2 (seconds % 60)
    ++ (if 0 < ticks then '.' :: padded 7 ticks else [])

/-- Why a text gives no span. -/
inductive ReadFault where
  /-- the text is not in the form of a span, or the span is out of range -/
  | noSpan
  /-- the fraction has no scale -/
  | scaleOutOfRange
  deriving DecidableEq

/-- The size of a text in bytes. -/
def byteSize (text : List Char) : Nat := (String.ofList text).utf8ByteSize

/-- Reads an integer of 64 bits. -/
def part (text : List Char) : Except ReadFault Int :=
  match Integer.ofText? text with
  | some i => .ok i.toInt
  | none => .error .noSpan

/-- The nanoseconds by which one unit of the last digit of a fraction counts. -/
def scale (digits : List Char) : Except ReadFault Int :=
  if byteSize digits ≤ 9 then .ok (Integer.powerOfTen (9 - byteSize digits))
  else .error .scaleOutOfRange

/-- Reads seconds with an optional fraction, as seconds and nanoseconds. -/
def secondsPart (text : List Char) : Except ReadFault (Int × Int) :=
  match Text.splitFirst? '.' text with
  | some (whole, fraction) => do
    let digits := fraction.take 9
    let unit ← scale digits
    let seconds ← part whole
    let count ← part digits
    .ok (seconds, count * unit)
  | none => do
    let seconds ← part text
    .ok (seconds, 0)

/-- The parts of a clock text. -/
structure Clock where
  /-- the hours -/
  hours : Int
  /-- the minutes -/
  minutes : Int
  /-- the seconds -/
  seconds : Int
  /-- the nanoseconds of the fraction -/
  nanos : Int

/-- Reads hours, minutes and optional seconds. -/
def clock (parts : List (List Char)) : Except ReadFault Clock :=
  match parts with
  | hours :: minutes :: rest => do
    let hours ← part hours
    let minutes ← part minutes
    let (seconds, nanos) ← match rest with
      | seconds :: _ => secondsPart seconds
      | [] => .ok (0, 0)
    if rest.length ≤ 1 ∧ hours ≤ 23 ∧ minutes ≤ 59 ∧ seconds ≤ 59 then
      .ok ⟨hours, minutes, seconds, nanos⟩
    else .error .noSpan
  | _ => .error .noSpan

/-- The sum of days and a clock text, formed from the greatest unit down; every sum on the way has
to be in range. -/
def total? (days : Int) (c : Clock) : Option Span := do
  let sum ← ofNanos? (days * day)
  let sum ← sum.add? (← ofNanos? (c.hours * hour))
  let sum ← sum.add? (← ofNanos? (c.minutes * minute))
  let sum ← sum.add? (← ofNanos? (c.seconds * second))
  sum.add? (← ofNanos? c.nanos)

/-- Reads a text without its sign: the days, if any, stand before a point in front of the first
colon. -/
def readUnsigned (body : List Char) : Except ReadFault Span :=
  match Text.splitFirst? ':' body with
  | none => .error .noSpan
  | some (head, tail) => do
    let (days, hours) ← match Text.splitFirst? '.' head with
      | some (days, hours) => do .ok (← part days, hours)
      | none => .ok (0, head)
    let c ← clock (hours :: Text.splitAll ':' tail)
    match total? days c with
    | some sum => .ok sum
    | none => .error .noSpan

/-- Reads a span, blanks around it aside. -/
def read (text : String) : Except ReadFault Span :=
  match Text.trim text.toList with
  | '-' :: body => do
    let sum ← readUnsigned body
    .ok sum.neg
  | body => readUnsigned body

/-- The span that a text gives. -/
def ofText? (text : String) : Option Span :=
  match read text with
  | .ok sum => some sum
  | .error _ => none

end DataGrid.Span
