import Patchbay.Text.Printable

/-!
# Quoted texts

A text between quotation marks, as a widget shows its name and an error shows a missing key. The
mark is a single quote, unless the text has single quotes and no double ones.
-/

namespace Patchbay.Text

def hex (width n : Nat) : List Char :=
  let ds := Nat.toDigits 16 n
  List.replicate (width - ds.length) '0' ++ ds

def quotationMark (cs : List Char) : Char :=
  if cs.contains '\'' && !cs.contains '"' then '"' else '\''

/-- How a character stands between quotation marks. -/
def quoteChar (mark c : Char) : List Char :=
  if c == mark || c == '\\' then ['\\', c]
  else if c == '\n' then ['\\', 'n']
  else if c == '\r' then ['\\', 'r']
  else if c == '\t' then ['\\', 't']
  else if isPrintable c then [c]
  else if c.toNat ≤ 0xFF then '\\' :: 'x' :: hex 2 c.toNat
  else if c.toNat ≤ 0xFFFF then '\\' :: 'u' :: hex 4 c.toNat
  else '\\' :: 'U' :: hex 8 c.toNat

def quoted (s : String) : String :=
  let mark := quotationMark s.toList
  String.ofList (mark :: (s.toList.flatMap (quoteChar mark) ++ [mark]))

/-- Double quotes are taken for a text with single ones only; what is not printable is escaped. -/
example : quotationMark "it's".toList = '"' ∧ quoteChar '"' '\x07' = "\\x07".toList := by
  decide +kernel

end Patchbay.Text
