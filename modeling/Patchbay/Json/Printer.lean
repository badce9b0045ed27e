import Patchbay.Json.Limits
import Patchbay.Text.Quoted

/-!
# Writing JSON

There are two layouts. The compact one has no blanks and leaves characters as they are; it is for
documents with text keys, integers of 64 bits and bounded nesting. The spaced one takes every
document but those with a tuple for a key, writes other keys as texts and escapes all but ASCII;
it may break and indent lines.
-/

namespace Patchbay.Json

structure Layout where
  /-- What stands between two items on one line. -/
  comma : String
  colon : String
  /-- Escape the delete character and all characters beyond ASCII. -/
  ascii : Bool
  numbers : Decimal.Style
  /-- Blanks per level if each item has a line of its own. -/
  indent : Option Nat

def compactNumbers : Decimal.Style where
  lowest := -5
  highest := 15
  exponentDigits := 1
  nan := "null"
  infinity := "null"
  negativeInfinity := "null"

/-- Both ends of what the compact layout writes positionally. -/
example : compactNumbers.write (.ofDecimal false 1 (-5)) = "0.00001".toList ∧
    compactNumbers.write (.ofDecimal false 1 (-6)) = "1e-6".toList ∧
    compactNumbers.write (.ofDecimal false 1 16) = "1e+16".toList := by decide +kernel

def spacedNumbers : Decimal.Style :=
  { Decimal.plain with nan := "NaN", infinity := "Infinity", negativeInfinity := "-Infinity" }

/-- No blanks, characters as they are. -/
def compact : Layout where
  comma := ","
  colon := ":"
  ascii := false
  numbers := compactNumbers
  indent := none

/-- Blanks after commas and colons, or one item a line. -/
def spaced (indent : Option Nat) : Layout where
  comma := if indent.isSome then "," else ", "
  colon := ": "
  ascii := true
  numbers := spacedNumbers
  indent := indent

def escapeUnit (n : Nat) : List Char :=
  '\\' :: 'u' :: Text.hex 4 n

def escape (ascii : Bool) (c : Char) : List Char :=
  if c == '"' then ['\\', '"']
  else if c == '\\' then ['\\', '\\']
  else if c == '\n' then ['\\', 'n']
  else if c == '\r' then ['\\', 'r']
  else if c == '\t' then ['\\', 't']
  else if c == '\x08' then ['\\', 'b']
  else if c == '\x0c' then ['\\', 'f']
  else if c.toNat < 0x20 then escapeUnit c.toNat
  else if ascii && 0x7F ≤ c.toNat then
    if c.toNat < 0x10000 then escapeUnit c.toNat
    else
      -- Beyond 16 bits, a pair of surrogate halves.
      let n := c.toNat - 0x10000
      escapeUnit (0xD800 + n / 0x400) ++ escapeUnit (0xDC00 + n % 0x400)
  else [c]

def printText (ascii : Bool) (s : String) : List Char :=
  '"' :: (s.toList.flatMap (escape ascii) ++ ['"'])

/-- A new line with its indentation, or nothing if all stands on one line. -/
def lineBreak (indent : Option Nat) (level : Nat) : List Char :=
  match indent with
  | some width => '\n' :: List.replicate (width * level) ' '
  | none => []

def bracket (layout : Layout) (level : Nat) (opening closing : Char)
    (items : List (List Char)) : List Char :=
  if items.isEmpty then [opening, closing]
  else
    let separator := layout.comma.toList ++ lineBreak layout.indent (level + 1)
    opening :: (lineBreak layout.indent (level + 1) ++ separator.intercalate items ++
      lineBreak layout.indent level ++ [closing])

/-- The text that stands for a key, if one does. A tuple has none. -/
def keyText? (numbers : Decimal.Style) : Key → Option String
  | .text s => some s
  | .int n => some (String.ofList (Decimal.integer n))
  | .bool b => some (if b then "true" else "false")
  | .null => some "null"
  | .float x => some (String.ofList (numbers.write x))
  | .tuple _ => none

mutual

/-- The text of a document, unless a tuple is a key in it. -/
def print? (layout : Layout) (level : Nat) : Value → Option (List Char)
  | .null => some ['n', 'u', 'l', 'l']
  | .bool b => some (if b then ['t', 'r', 'u', 'e'] else ['f', 'a', 'l', 's', 'e'])
  | .int n => some (Decimal.integer n)
  | .float x => some (layout.numbers.write x)
  | .text s => some (printText layout.ascii s)
  | .list items => (printItems? layout (level + 1) items).map (bracket layout level '[' ']')
  | .map entries =>
    (printEntries? layout (level + 1) entries).map (bracket layout level '\x7b' '\x7d')

def printItems? (layout : Layout) (level : Nat) : List Value → Option (List (List Char))
  | [] => some []
  | v :: rest =>
    match print? layout level v, printItems? layout level rest with
    | some text, some texts => some (text :: texts)
    | _, _ => none

def printEntries? (layout : Layout) (level : Nat) :
    List (Key × Value) → Option (List (List Char))
  | [] => some []
  | (k, v) :: rest =>
    match keyText? layout.numbers k, print? layout level v,
      printEntries? layout level rest with
    | some key, some text, some texts =>
      some ((printText layout.ascii key ++ layout.colon.toList ++ text) :: texts)
    | _, _, _ => none

end

/-- Whether an integer fits 64 bits, signed or unsigned. -/
def isWord (n : Int) : Bool :=
  -0x8000000000000000 ≤ n && n ≤ 0xFFFFFFFFFFFFFFFF

mutual

/-- Whether all keys are texts and all integers fit 64 bits. -/
def isPlain : Value → Bool
  | .int n => isWord n
  | .list items => arePlain items
  | .map entries => haveTextKeys entries
  | _ => true

def arePlain : List Value → Bool
  | [] => true
  | v :: rest => isPlain v && arePlain rest

def haveTextKeys : List (Key × Value) → Bool
  | [] => true
  | (.text _, v) :: rest => isPlain v && haveTextKeys rest
  | _ :: _ => false

end

/-- The deepest nesting that the compact layout takes. -/
def compactNesting : Nat := 254

def isCompact (value : Value) : Bool :=
  isPlain value && nesting value ≤ compactNesting

/-- The text of a document: compact if that layout takes it and no indentation is asked for,
spaced otherwise. Only a positive indentation breaks lines. -/
def text? (value : Value) (indent : Int) : Option String :=
  let layout := if indent = 0 && isCompact value then compact
    else spaced (if 0 < indent then some indent.toNat else none)
  (print? layout 0 value).map String.ofList

end Patchbay.Json
