import Patchbay.Json.Reader
import Patchbay.Schema

/-!
# Numbers written in settings

The text of a number may have spaces around it, a sign and underscores between digits. What is
left without them is a JSON integer or a decimal number with a point or an exponent. The two
readers take underscores out at different moments: the text of an integer loses leading zeros, and
the underscores among them, first; the text of a floating point number keeps its spaces when it
has underscores, and is refused if it has both.
-/

namespace Patchbay.Settings

/-- The spaces that may stand around a number: blanks other than the four separators of
records. -/
def isSpace (c : Char) : Bool :=
  Text.isBlank c && !(0x1C ≤ c.toNat && c.toNat ≤ 0x1F)

def trim (cs : List Char) : List Char :=
  ((cs.dropWhile isSpace).reverse.dropWhile isSpace).reverse

/-- Whether underscores only stand between two other characters. -/
def underscoresInside (cs : List Char) : Bool :=
  cs.head? != some '_' && cs.getLast? != some '_' &&
    (cs.zip (cs.drop 1)).all fun pair => !(pair.1 == '_' && pair.2 == '_')

def withoutUnderscores? (cs : List Char) : Option (List Char) :=
  if underscoresInside cs then some (cs.filter (· != '_')) else none

/-- Splits off a sign and says whether it is a minus sign. -/
def signed : List Char → Bool × List Char
  | '-' :: rest => (true, rest)
  | '+' :: rest => (false, rest)
  | cs => (false, cs)

/-! ## Integers -/

/-- Drops what follows a leading zero up to the first other digit: zeros and the underscores among
them. In front of a point and at the end of the text the last dropped character stays, which is
`last` if nothing else has been dropped. -/
def withoutLeadingZeros (last : Char) : List Char → List Char
  | [] => [last]
  | '.' :: rest => last :: '.' :: rest
  | c :: rest => if c == '0' || c == '_' then withoutLeadingZeros c rest else c :: rest

/-- Cuts off a fraction that consists of zeros, one at least. -/
def withoutZeroFraction (cs : List Char) : List Char :=
  match cs.dropWhile (· != '.') with
  | _ :: '0' :: zeros => if zeros.all (· == '0') then cs.takeWhile (· != '.') else cs
  | _ => cs

/-- The JSON form of an integer that is written without sign, for a text that starts with a
digit. -/
def integerForm? : List Char → Option (List Char)
  | [] => none
  | c :: rest =>
    if !Json.isDigit c then none
    else
      let form := withoutZeroFraction (if c == '0' then withoutLeadingZeros c rest else c :: rest)
      some ((withoutUnderscores? form).getD form)

/-- The longest form of an integer that is read, its sign included. -/
def longestInteger : Nat := 4300

/-- Whether a form has too many digits, whatever follows them. A form that starts with a zero has
no other digit. -/
def isTooLong (form : List Char) : Bool :=
  let digits := if form.head? == some '-' then form.drop 1 else form
  digits.head? != some '0' &&
    longestInteger < (form.length - digits.length) + (digits.takeWhile Json.isDigit).length

def checkIntText (s : String) : Schema.Checked Int :=
  let (negative, cs) := signed (trim s.toList)
  match integerForm? cs with
  | none => Schema.refuse .intText
  | some form =>
    let form := if negative then '-' :: form else form
    if isTooLong form then Schema.refuse .intSize
    else
      match Json.number? form with
      | some (.int n, []) => .ok n
      | _ => Schema.refuse .intText

/-- Zeros and underscores in front are dropped together, a fraction needs a digit, and there is
one sign. -/
example : (checkIntText " 0__7.00 ").toOption = some 7 ∧ (checkIntText "7.").toOption = none ∧
    (checkIntText "-+7").toOption = none := by decide +kernel

/-! ## Floating point numbers -/

/-- A number without sign, with a point or an exponent or neither. -/
def unsignedOfText? (negative : Bool) (cs : List Char) : Option Binary64 :=
  let whole := cs.takeWhile Json.isDigit
  let (places, rest) := match cs.dropWhile Json.isDigit with
    | '.' :: rest => (rest.takeWhile Json.isDigit, rest.dropWhile Json.isDigit)
    | rest => ([], rest)
  if whole.isEmpty && places.isEmpty then none
  else
    match Json.exponent? rest with
    | some (exponent, []) =>
      some (Binary64.ofDecimal negative (Json.natural (whole ++ places))
        (exponent.getD 0 - places.length))
    | _ => none

/-- The floating point number that a text without spaces and underscores stands for. -/
def plainFloatOfText? (cs : List Char) : Option Binary64 :=
  let (negative, cs) := signed cs
  match String.ofList (cs.map Char.toLower) with
  | "inf" => some (.infinity negative)
  | "infinity" => some (.infinity negative)
  | "nan" => some .nan
  | _ => unsignedOfText? negative cs

/-- The floating point number that a text stands for. It may have spaces around it or underscores
inside, but not both. -/
def floatOfText? (s : String) : Option Binary64 :=
  match plainFloatOfText? (trim s.toList) with
  | some x => some x
  | none => (withoutUnderscores? s.toList).bind plainFloatOfText?

def checkFloatText (s : String) : Schema.Checked Binary64 :=
  match floatOfText? s with
  | some x => .ok x
  | none => Schema.refuse .floatText

end Patchbay.Settings
