import Patchbay.Json.Limits
import Patchbay.Text.Blank

/-!
# Reading JSON

The grammar is the strict one: four blanks, no leading zeros, no raw control characters, no lone
halves of surrogate pairs. A number with a fraction or an exponent is a floating point number and
must not overflow; any other is an integer of any size. The last of several values under one key
wins, at the place of the first.
-/

namespace Patchbay.Json

def isSpace (c : Char) : Bool :=
  c == ' ' || c == '\t' || c == '\n' || c == '\r'

def skip (cs : List Char) : List Char :=
  cs.dropWhile isSpace

def hexDigit? (c : Char) : Option Nat :=
  if '0' ≤ c && c ≤ '9' then some (c.toNat - 48)
  else if 'a' ≤ c && c ≤ 'f' then some (c.toNat - 87)
  else if 'A' ≤ c && c ≤ 'F' then some (c.toNat - 55)
  else none

/-- The 16-bit unit that four hexadecimal digits stand for. -/
def unit? (a b c d : Char) : Option Nat :=
  match hexDigit? a, hexDigit? b, hexDigit? c, hexDigit? d with
  | some a, some b, some c, some d => some (((a * 16 + b) * 16 + c) * 16 + d)
  | _, _, _, _ => none

/-- The character that a letter after a backslash stands for. -/
def unescape? : Char → Option Char
  | '"' => some '"'
  | '\\' => some '\\'
  | '/' => some '/'
  | 'b' => some '\x08'
  | 'f' => some '\x0c'
  | 'n' => some '\n'
  | 'r' => some '\r'
  | 't' => some '\t'
  | _ => none

def isHighHalf (n : Nat) : Bool := 0xD800 ≤ n && n < 0xDC00

def isLowHalf (n : Nat) : Bool := 0xDC00 ≤ n && n < 0xE000

def joinHalves (high low : Nat) : Char :=
  Char.ofNat (0x10000 + (high - 0xD800) * 0x400 + (low - 0xDC00))

/-- Reads the rest of a text after its opening quote. `high` is the first half of a pair that
waits for its second half, which must follow at once; `read` holds the characters before, the last
one first. -/
def textRest (high : Option Nat) (read : List Char) :
    List Char → Option (String × List Char)
  | [] => none
  | '\\' :: 'u' :: a :: b :: c :: d :: rest =>
    -- Only a further escape can complete a pair.
    match high, unit? a b c d with
    | _, none => none
    | some first, some n =>
      if isLowHalf n then textRest none (joinHalves first n :: read) rest else none
    | none, some n =>
      if isHighHalf n then textRest (some n) read rest
      else if isLowHalf n then none
      else textRest none (Char.ofNat n :: read) rest
  | '\\' :: c :: rest =>
    match high, unescape? c with
    | none, some c => textRest none (c :: read) rest
    | _, _ => none
  | c :: rest =>
    if high.isSome then none
    else if c == '"' then some (String.ofList read.reverse, rest)
    else if c.toNat < 0x20 || c == '\\' then none
    else textRest none (c :: read) rest

def isDigit (c : Char) : Bool := '0' ≤ c && c ≤ '9'

def natural (ds : List Char) : Nat :=
  ds.foldl (fun n c => n * 10 + (c.toNat - 48)) 0

/-- Reads the digits of a fraction, if a point stands in front. A point without digits is
refused. -/
def fraction? : List Char → Option (Option (List Char) × List Char)
  | '.' :: rest =>
    let ds := rest.takeWhile isDigit
    if ds.isEmpty then none else some (some ds, rest.dropWhile isDigit)
  | cs => some (none, cs)

/-- Reads an exponent, if its mark stands in front; a mark without digits is refused. -/
def exponent? : List Char → Option (Option Int × List Char)
  | [] => some (none, [])
  | c :: rest =>
    if c == 'e' || c == 'E' then
      let (negative, rest) := match rest with
        | '-' :: r => (true, r)
        | '+' :: r => (false, r)
        | r => (false, r)
      let ds := rest.takeWhile isDigit
      let n : Int := natural ds
      if ds.isEmpty then none
      else some (some (if negative then -n else n), rest.dropWhile isDigit)
    else some (none, c :: rest)

/-- Reads an unsigned number and gives it its sign. -/
def unsigned? (negative : Bool) (cs : List Char) : Option (Value × List Char) := do
  let whole := cs.takeWhile isDigit
  -- A leading zero has to stand alone.
  if whole.isEmpty || (whole.head? == some '0' && whole.length != 1) then none
  else
    let (fraction, rest) ← fraction? (cs.dropWhile isDigit)
    let (exponent, rest) ← exponent? rest
    if fraction.isNone && exponent.isNone then
      let n : Int := natural whole
      some (.int (if negative then -n else n), rest)
    else
      -- The digits of the fraction join the others and lower the exponent.
      let places := fraction.getD []
      match Binary64.ofDecimal negative (natural (whole ++ places))
          (exponent.getD 0 - places.length) with
      | .infinity _ => none
      | x => some (.float x, rest)

def number? : List Char → Option (Value × List Char)
  | '-' :: rest => unsigned? true rest
  | cs => unsigned? false cs

mutual

/-- Reads a value that starts at the first character. Each character read costs at most two units
of fuel. -/
def value? : Nat → List Char → Option (Value × List Char)
  | 0, _ => none
  | fuel + 1, cs =>
    match cs with
    | '\x7b' :: rest =>
      match skip rest with
      | '\x7d' :: rest => some (.map [], rest)
      | rest => entries? fuel [] rest
    | '[' :: rest =>
      match skip rest with
      | ']' :: rest => some (.list [], rest)
      | rest => items? fuel [] rest
    | '"' :: rest => (textRest none [] rest).map fun (s, rest) => (.text s, rest)
    | 't' :: 'r' :: 'u' :: 'e' :: rest => some (.bool true, rest)
    | 'f' :: 'a' :: 'l' :: 's' :: 'e' :: rest => some (.bool false, rest)
    | 'n' :: 'u' :: 'l' :: 'l' :: rest => some (.null, rest)
    | cs => number? cs

/-- Reads the items of a list from the first item on. `read` holds those before, the last one
first. -/
def items? : Nat → List Value → List Char → Option (Value × List Char)
  | 0, _, _ => none
  | fuel + 1, read, cs =>
    match value? fuel cs with
    | none => none
    | some (v, rest) =>
      match skip rest with
      | ',' :: rest => items? fuel (v :: read) (skip rest)
      | ']' :: rest => some (.list (v :: read).reverse, rest)
      | _ => none

/-- Reads the entries of a map from the first key on. `read` holds those before, the last one
first. -/
def entries? : Nat → List (Key × Value) → List Char → Option (Value × List Char)
  | 0, _, _ => none
  | fuel + 1, read, cs =>
    match cs with
    | '"' :: rest =>
      match textRest none [] rest with
      | none => none
      | some (key, rest) =>
        match skip rest with
        | ':' :: rest =>
          match value? fuel (skip rest) with
          | none => none
          | some (v, rest) =>
            match skip rest with
            | ',' :: rest => entries? fuel ((.text key, v) :: read) (skip rest)
            | '\x7d' :: rest => some (Value.ofPairs ((.text key, v) :: read).reverse, rest)
            | _ => none
        | _ => none
    | _ => none

end

/-- Reads a text that holds one value and blanks around it. -/
def read? (cs : List Char) : Option Value :=
  match value? (2 * cs.length + 1) (skip cs) with
  | some (v, rest) => if (skip rest).isEmpty then some v else none
  | none => none

def asMap (value : Value) : Except Error Value :=
  match value with
  | .map entries => .ok (.map entries)
  | other => .error (.notMap other.kind)

/-- Reads a document, blank characters around it cut off first. -/
def readMap (text : String) : Except Error Value :=
  match read? (Text.trim text.toList) with
  | some value => asMap value
  | none => .error .malformed

end Patchbay.Json
