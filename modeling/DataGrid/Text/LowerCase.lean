import DataGrid.Text.LowerCase.Table

/-!
# Lower case

* `lowerCase` maps a whole text: character by character, except that a capital sigma becomes the
  final form at the end of a word and that the dotted capital I becomes two characters.
* `lowerAscii` and `sameIgnoringAsciiCase` know the 26 letters of ASCII only.
-/

namespace DataGrid.Text

/-- Whether a code point lies in one of the ranges. -/
def inRanges (ranges : List (Nat × Nat)) (n : Nat) : Bool :=
  ranges.any fun (first, last) => first ≤ n && n ≤ last

/-- Whether a character has the property Cased. -/
def isCased (c : Char) : Bool := inRanges casedRanges c.toNat

/-- Whether a character has the property Case_Ignorable. -/
def isCaseIgnorable (c : Char) : Bool := inRanges caseIgnorableRanges c.toNat

/-- The lower-case form of a character on its own, of those with a single character as that form. -/
def lowerChar (c : Char) : Char :=
  let n := c.toNat
  if n < 128 then c.toLower
  else
    match shiftRuns.find? fun r => r.first ≤ n && n ≤ r.last && (n - r.first) % r.step == 0 with
    | some r => Char.ofNat (n + r.shift).toNat
    | none => c

/-- The Greek capital sigma. -/
def capitalSigma : Char := 'Σ'

/-- The Latin capital I with a dot above. -/
def dottedCapitalI : Char := 'İ'

/-- Whether the first character that is not case-ignorable is cased. -/
def meetsCased (text : List Char) : Bool :=
  match text.dropWhile isCaseIgnorable with
  | c :: _ => isCased c
  | [] => false

/-- The lower-case form of a character between the text before it, read backwards, and the text
after it. -/
def lowerWithin (before : List Char) (c : Char) (after : List Char) : List Char :=
  if c = capitalSigma then
    [if meetsCased before && !meetsCased after then 'ς' else 'σ']
  else if c = dottedCapitalI then ['i', '\u0307']
  else [lowerChar c]

/-- The lower-case form of a text that stands after another one, which is read backwards. -/
def lowerAfter (before : List Char) : List Char → List Char
  | [] => []
  | c :: rest => lowerWithin before c rest ++ lowerAfter (c :: before) rest

/-- The lower-case form of a text. -/
def lowerCase (text : String) : String := String.ofList (lowerAfter [] text.toList)

/-- The text with the letters of ASCII in lower case. -/
def lowerAscii (text : String) : String := String.ofList (text.toList.map Char.toLower)

/-- Whether two texts differ at most in the case of letters of ASCII. -/
def sameIgnoringAsciiCase (a b : String) : Bool := lowerAscii a == lowerAscii b

end DataGrid.Text
