/-!
# Dispatch ids

Each dispatch has an id that its log lines carry: a mark, an underscore and a number of 128 bits
in 26 digits of base 32. The digits leave out the letters I, L, O and U.
-/

namespace Patchbay.DispatchId

def digits : List Char :=
  "0123456789ABCDEFGHJKMNPQRSTVWXYZ".toList

/-- Whether a character is a digit of base 32, in either case. -/
def isDigit (c : Char) : Bool :=
  digits.contains c || (c.isLower && digits.contains c.toUpper)

/-- Whether a text is a number of 128 bits: 26 digits, the first one below 8. -/
def isNumber (cs : List Char) : Bool :=
  cs.length = 26 && cs.all isDigit && (cs.head?.any fun c => '0' ≤ c && c ≤ '7')

/-- What counts of an id: the part between its first and second underscore, or all of it if it has
none. -/
def numberPart (cs : List Char) : List Char :=
  if cs.contains '_' then ((cs.dropWhile (· != '_')).drop 1).takeWhile (· != '_') else cs

def isValid (id : String) : Bool :=
  isNumber (numberPart id.toList)

def mark : String := "dsp_"

def isDispatchId (id : String) : Bool :=
  mark.toList.isPrefixOf id.toList && isValid id

/-- The last `count` digits of a number, the most significant first. -/
def writeDigits : Nat → Nat → List Char
  | 0, _ => []
  | count + 1, n => writeDigits count (n / 32) ++ [digits.getD (n % 32) '0']

/-- The dispatch id of a number below `2 ^ 128`. -/
def ofNat (n : Nat) : String :=
  String.ofList (mark.toList ++ writeDigits 26 (n % Nat.pow 2 128))

theorem length_writeDigits (count n : Nat) : (writeDigits count n).length = count := by
  induction count generalizing n with
  | zero => rfl
  | succ count ih => simp [writeDigits, ih]

end Patchbay.DispatchId
