import DataGrid.DateTime.Basic
import DataGrid.Integer
import DataGrid.Text.Blank

/-!
# Reading moments

* `ofPattern?` reads a text by a list of pattern items. Numbers may have blanks in front of them
  and have at most two digits; a year has at most four, or a sign and any number of digits.
* `ofZoned?` reads a moment with a zone, in which every number has its full width, and moves it to
  offset zero.
* `ofText?` drops the blanks around a text and tries the zoned form, then the patterns.
-/

namespace DataGrid.DateTime

/-- An item of a pattern. -/
inductive Item where
  /-- the year -/
  | year
  /-- the month -/
  | month
  /-- the day of the month -/
  | day
  /-- the hour of the day -/
  | hour
  /-- the minute of the hour -/
  | minute
  /-- the second of the minute; 60 is a leap second -/
  | second
  /-- a point and the digits of a fraction, or nothing -/
  | fraction
  /-- one character -/
  | mark (c : Char)
  /-- any run of blanks -/
  | gap
  deriving DecidableEq

/-- Reads a number of at least `least` and at most `most` digits. -/
def digits? (least most : Nat) (text : List Char) : Option (Nat × List Char) :=
  let run := (text.take most).takeWhile Char.isDigit
  if run.length < least then none
  else some (Nat.ofDigitChars 10 run 0, text.drop run.length)

/-- Reads the digits of a fraction as nanoseconds; those past nine are dropped. -/
def nanos? (text : List Char) : Option (Nat × List Char) :=
  let run := text.takeWhile Char.isDigit
  if run.isEmpty then none
  else
    let kept := run.take 9
    some (Nat.ofDigitChars 10 kept 0 * Integer.powerOfTen (9 - kept.length), text.drop run.length)

/-- Reads a year. -/
def year? : List Char → Option (Int × List Char)
  | '-' :: rest => (digits? 1 rest.length rest).map fun (n, rest) => (-(n : Int), rest)
  | '+' :: rest => (digits? 1 rest.length rest).map fun (n, rest) => ((n : Int), rest)
  | text => (digits? 1 4 text).map fun (n, rest) => ((n : Int), rest)

/-- Puts a second of 60 into the nanoseconds of second 59. -/
def Fields.withSecond (f : Fields) (second : Nat) : Fields :=
  if second = 60 then { f with second := 59, nano := f.nano + nanosPerSecond }
  else { f with second := second }

/-- Reads one item and enters it into the fields. -/
def readItem? (item : Item) (f : Fields) (text : List Char) : Option (Fields × List Char) :=
  let number (enter : Nat → Fields) : Option (Fields × List Char) :=
    (digits? 1 2 (Text.trimStart text)).map fun (n, rest) => (enter n, rest)
  match item with
  | .year => (year? (Text.trimStart text)).map fun (y, rest) => ({ f with year := y }, rest)
  | .month => number fun n => { f with month := n }
  | .day => number fun n => { f with day := n }
  | .hour => number fun n => { f with hour := n }
  | .minute => number fun n => { f with minute := n }
  | .second => number fun n => f.withSecond n
  | .fraction =>
    match text with
    | '.' :: rest => (nanos? rest).map fun (n, rest) => ({ f with nano := f.nano + n }, rest)
    | _ => some (f, text)
  | .mark c =>
    match text with
    | x :: rest => if x = c then some (f, rest) else none
    | [] => none
  | .gap => some (f, Text.trimStart text)

/-- Reads the items of a pattern one after another. -/
def readItems? : List Item → Fields → List Char → Option (Fields × List Char)
  | [], f, text => some (f, text)
  | item :: items, f, text =>
    match readItem? item f text with
    | some (f, rest) => readItems? items f rest
    | none => none

/-- The fields before anything is read: midnight of no day. -/
def blankFields : Fields := ⟨0, 0, 0, 0, 0, 0, 0⟩

/-- The moment that a whole text names by a pattern. -/
def ofPattern? (pattern : List Item) (text : List Char) : Option DateTime :=
  match readItems? pattern blankFields text with
  | some (f, []) => ofFields? f
  | _ => none

/-! ## The zoned form -/

/-- Reads `Z`, or a sign and hours and minutes ahead of offset zero. -/
def offset? : List Char → Option (Int × List Char)
  | [] => none
  | c :: rest =>
    if c = 'Z' ∨ c = 'z' then some (0, rest)
    else if c = '+' ∨ c = '-' ∨ c = '−' then do
      let (hours, rest) ← digits? 2 2 rest
      let rest ← match rest with
        | ':' :: rest => some rest
        | _ => none
      let (minutes, rest) ← digits? 2 2 rest
      if hours < 24 ∧ minutes < 60 then
        let ahead : Int := hours * 60 + minutes
        some (if c = '+' then ahead else -ahead, rest)
      else none
    else none

/-- Reads a character that is one of a list. -/
def oneOf? (marks : List Char) : List Char → Option (List Char)
  | c :: rest => if marks.contains c then some rest else none
  | [] => none

/-- The moment at offset zero that a whole text names together with a zone. -/
def ofZoned? (text : List Char) : Option DateTime := do
  let (year, text) ← digits? 4 4 text
  let text ← oneOf? ['-'] text
  let (month, text) ← digits? 2 2 text
  let text ← oneOf? ['-'] text
  let (day, text) ← digits? 2 2 text
  let text ← oneOf? ['T', 't', ' '] text
  let (hour, text) ← digits? 2 2 text
  let text ← oneOf? [':'] text
  let (minute, text) ← digits? 2 2 text
  let text ← oneOf? [':'] text
  let (second, text) ← digits? 2 2 text
  let (nano, text) ← match text with
    | '.' :: rest => nanos? rest
    | _ => some (0, text)
  let (ahead, text) ← offset? text
  if !text.isEmpty then none
  else
    let shown : Fields := ⟨year, month, day, hour, minute, 0, nano⟩
    let moment ← ofFields? (shown.withSecond second)
    ofFields? (moment.fields.toOffsetZero ahead)

/-! ## All spellings -/

/-- A date whose parts are divided by a character. -/
def datePattern (c : Char) : List Item := [.year, .mark c, .month, .mark c, .day]

/-- Hour and minute. -/
def shortTime : List Item := [.hour, .mark ':', .minute]

/-- Hour, minute, second and an optional fraction. -/
def longTime : List Item := shortTime ++ [.mark ':', .second, .fraction]

/-- The patterns of a text without a zone, in the order in which they are tried. -/
def patterns : List (List Item) := [
  datePattern '/' ++ .gap :: longTime,
  datePattern '/' ++ .gap :: shortTime,
  datePattern '-' ++ .mark 'T' :: longTime,
  datePattern '-' ++ .gap :: longTime,
  datePattern '-' ++ .mark 'T' :: shortTime,
  datePattern '/',
  datePattern '-']

/-- The moment that a text names in one of the accepted spellings. -/
def ofText? (text : String) : Option DateTime :=
  let chars := Text.trim text.toList
  match ofZoned? chars with
  | some d => some d
  | none => patterns.findSome? fun pattern => ofPattern? pattern chars

end DataGrid.DateTime
