/-!
# Universally unique identifiers

* `Uuid.text` writes 32 hexadecimal digits in lower case, in groups of 8, 4, 4, 4 and 12.
* `Uuid.ofText?` reads 32 digits without marks, or the grouped form, which may stand between braces
  or behind `urn:uuid:`. Digits and the letters of that mark may have either case.
-/

namespace DataGrid

/-- An identifier of 128 bits; identifiers are ordered as numbers. -/
structure Uuid where
  /-- the identifier as a number -/
  value : BitVec 128
  deriving DecidableEq

namespace Uuid

/-- The order as numbers. -/
def order (a b : Uuid) : Ordering := compare a.value.toNat b.value.toNat

/-- The 32 digits of an identifier. -/
def digits (u : Uuid) : List Char :=
  let short := Nat.toDigits 16 u.value.toNat
  List.replicate (32 - short.length) '0' ++ short

/-- The written form of an identifier. -/
def text (u : Uuid) : List Char :=
  let d := u.digits
  d.take 8 ++ '-' :: (d.drop 8).take 4 ++ '-' :: (d.drop 12).take 4
    ++ '-' :: (d.drop 16).take 4 ++ '-' :: d.drop 20

/-- The value of a hexadecimal digit. -/
def digitValue? (c : Char) : Option Nat :=
  if '0' ≤ c ∧ c ≤ '9' then some (c.toNat - '0'.toNat)
  else if 'a' ≤ c ∧ c ≤ 'f' then some (c.toNat - 'a'.toNat + 10)
  else if 'A' ≤ c ∧ c ≤ 'F' then some (c.toNat - 'A'.toNat + 10)
  else none

/-- The number that hexadecimal digits write. -/
def number? (digits : List Char) : Option Nat :=
  digits.foldlM (fun n c => (digitValue? c).map fun d => 16 * n + d) 0

/-- Reads exactly 32 digits. -/
def ofDigits? (digits : List Char) : Option Uuid :=
  if digits.length = 32 then
    (number? digits).map fun n => ⟨BitVec.ofNat 128 n⟩
  else none

/-- Reads the grouped form. -/
def ofGroups? (text : List Char) : Option Uuid :=
  if text.length = 36 ∧ text[8]? = some '-' ∧ text[13]? = some '-' ∧ text[18]? = some '-'
      ∧ text[23]? = some '-' then
    ofDigits? (text.take 8 ++ (text.drop 9).take 4 ++ (text.drop 14).take 4
      ++ (text.drop 19).take 4 ++ text.drop 24)
  else none

/-- The mark in front of an identifier as a resource name, in lower case. -/
def resourceMark : List Char := "urn:uuid:".toList

/-- Reads an identifier in one of the accepted forms. -/
def ofText? (text : List Char) : Option Uuid :=
  if text.length = 32 then ofDigits? text
  else if text.length = 36 then ofGroups? text
  else if text.length = 38 then
    if text.head? = some '\x7b' ∧ text.getLast? = some '\x7d' then
      ofGroups? ((text.drop 1).take 36)
    else none
  else if text.length = 45 then
    if (text.take 9).map Char.toLower = resourceMark then ofGroups? (text.drop 9) else none
  else none

end Uuid

end DataGrid
