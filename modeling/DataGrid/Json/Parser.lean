import DataGrid.Json.Basic
import DataGrid.Integer

/-!
# Reading JSON text

`Json.parse?` reads one tree that fills a whole text. A step of the reader returns what it read and
the rest of the text; the fuel of the recursive steps is the length of the text, since each of them
consumes at least one character.
-/

namespace DataGrid.Json

/-- A reader of the start of a text. -/
abbrev Reader (α : Type) := List Char → Option (α × List Char)

/-- Drops the blanks of JSON at the start of a text. -/
def skipBlanks (text : List Char) : List Char :=
  text.dropWhile fun c => c == ' ' || c == '\n' || c == '\t' || c == '\r'

/-- Reads a fixed word. -/
def word? (w : List Char) (value : Json) : Reader Json := fun text =>
  if w.isPrefixOf text then some (value, text.drop w.length) else none

/-- The value of a hexadecimal digit. -/
def hexDigit? (c : Char) : Option Nat :=
  if c.isDigit then some (c.toNat - '0'.toNat)
  else if 'a' ≤ c ∧ c ≤ 'f' then some (c.toNat - 'a'.toNat + 10)
  else if 'A' ≤ c ∧ c ≤ 'F' then some (c.toNat - 'A'.toNat + 10)
  else none

/-- Reads four hexadecimal digits. -/
def hexUnit? : Reader Nat
  | a :: b :: c :: d :: rest => do
    let a ← hexDigit? a
    let b ← hexDigit? b
    let c ← hexDigit? c
    let d ← hexDigit? d
    some (((a * 16 + b) * 16 + c) * 16 + d, rest)
  | _ => none

/-- Reads the rest of an escape that starts with `u`: one unit, or two that form a pair. -/
def unicodeEscape? : Reader Char := fun text => do
  let (unit, rest) ← hexUnit? text
  if 0xD800 ≤ unit ∧ unit < 0xDC00 then
    match rest with
    | '\\' :: 'u' :: rest =>
      let (low, rest) ← hexUnit? rest
      if 0xDC00 ≤ low ∧ low < 0xE000 then
        some (Char.ofNat (0x10000 + (unit - 0xD800) * 0x400 + (low - 0xDC00)), rest)
      else none
    | _ => none
  else if 0xDC00 ≤ unit ∧ unit < 0xE000 then none
  else some (Char.ofNat unit, rest)

/-- Reads what follows a backslash. -/
def escape? : Reader Char
  | '"' :: rest => some ('"', rest)
  | '\\' :: rest => some ('\\', rest)
  | '/' :: rest => some ('/', rest)
  | 'b' :: rest => some ('\x08', rest)
  | 'f' :: rest => some ('\x0c', rest)
  | 'n' :: rest => some ('\n', rest)
  | 'r' :: rest => some ('\r', rest)
  | 't' :: rest => some ('\t', rest)
  | 'u' :: rest => unicodeEscape? rest
  | _ => none

/-- Reads the characters up to the closing quote, after those already read, which are kept
backwards. -/
def stringBody? : Nat → List Char → Reader String
  | 0, _, _ => none
  | fuel + 1, done, text =>
    match text with
    | '"' :: rest => some (String.ofList done.reverse, rest)
    | '\\' :: rest =>
      match escape? rest with
      | some (c, rest) => stringBody? fuel (c :: done) rest
      | none => none
    | c :: rest => if c.toNat < 32 then none else stringBody? fuel (c :: done) rest
    | [] => none

/-- Whether digits are those of a number: at least one, and no needless zero in front. -/
def wholeDigits (digits : List Char) : Bool :=
  match digits with
  | [] => false
  | ['0'] => true
  | c :: _ => c != '0'

/-- The number with a sign, digits before and after the point, and a power of ten that is absent
for an integer. A negative zero and an integer beyond 64 bits are doubles. -/
def number (negative : Bool) (whole fraction : List Char) (exponent : Option Int) : Json :=
  let digits := Nat.ofDigitChars 10 (whole ++ fraction) 0
  let asFloat := Json.float (Binary64.ofDecimal negative
    ⟨digits, exponent.getD 0 - (fraction.length : Int)⟩)
  if !fraction.isEmpty || exponent.isSome then asFloat
  else if negative then
    if digits ≠ 0 ∧ Integer.least ≤ -(digits : Int) then .int (-(digits : Int)) else asFloat
  else if digits < UInt64.size then .int digits else asFloat

/-- Reads a number. -/
def number? : Reader Json := fun text =>
  let (negative, text) := match text with
    | '-' :: rest => (true, rest)
    | _ => (false, text)
  let (whole, text) := Binary64.digitRun text
  if !wholeDigits whole then none
  else
    let (fraction, text) := match text with
      | '.' :: rest => let (digits, rest) := Binary64.digitRun rest; (some digits, rest)
      | _ => (none, text)
    if fraction == some [] then none
    else
      let fraction := fraction.getD []
      match text with
      | c :: _ =>
        if c = 'e' ∨ c = 'E' then
          match Binary64.exponent? text with
          | some (e, rest) => some (number negative whole fraction (some e), rest)
          | none => none
        else some (number negative whole fraction none, text)
      | [] => some (number negative whole fraction none, [])

mutual

/-- Reads a tree at the start of a text. -/
def value? : Nat → Reader Json
  | 0, _ => none
  | fuel + 1, text =>
    match skipBlanks text with
    | 'n' :: rest => word? ['u', 'l', 'l'] .null rest
    | 't' :: rest => word? ['r', 'u', 'e'] (.bool true) rest
    | 'f' :: rest => word? ['a', 'l', 's', 'e'] (.bool false) rest
    | '"' :: rest => do
      let (s, rest) ← stringBody? (rest.length + 1) [] rest
      some (.string s, rest)
    | '[' :: rest =>
      match skipBlanks rest with
      | ']' :: rest => some (.array [], rest)
      | rest => do
        let (items, rest) ← items? fuel rest
        some (.array items, rest)
    | '\x7b' :: rest =>
      match skipBlanks rest with
      | '\x7d' :: rest => some (.object [], rest)
      | rest => do
        let (pairs, rest) ← pairs? fuel rest
        some (.ofPairs pairs, rest)
    | rest => number? rest

/-- Reads one or more items and the closing bracket. -/
def items? : Nat → Reader (List Json)
  | 0, _ => none
  | fuel + 1, text => do
    let (item, rest) ← value? fuel text
    match skipBlanks rest with
    | ',' :: rest =>
      let (items, rest) ← items? fuel rest
      some (item :: items, rest)
    | ']' :: rest => some ([item], rest)
    | _ => none

/-- Reads one or more named values and the closing brace. -/
def pairs? : Nat → Reader (List (String × Json))
  | 0, _ => none
  | fuel + 1, text =>
    match skipBlanks text with
    | '"' :: rest => do
      let (key, rest) ← stringBody? (rest.length + 1) [] rest
      match skipBlanks rest with
      | ':' :: rest =>
        let (value, rest) ← value? fuel rest
        match skipBlanks rest with
        | ',' :: rest =>
          let (pairs, rest) ← pairs? fuel rest
          some ((key, value) :: pairs, rest)
        | '\x7d' :: rest => some ([(key, value)], rest)
        | _ => none
      | _ => none
    | _ => none

end

/-- The tree that a whole text writes. -/
def parse? (text : String) : Option Json :=
  let chars := text.toList
  match value? (2 * chars.length + 2) chars with
  | some (value, rest) => if (skipBlanks rest).isEmpty then some value else none
  | none => none

end DataGrid.Json
