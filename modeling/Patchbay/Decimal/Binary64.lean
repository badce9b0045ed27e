/-!
# Binary floating point numbers with 53 digits

A number is kept as its sign, mantissa and exponent instead of as a word, so that each operation
is exact arithmetic on natural numbers followed by one rounding.
-/

namespace Patchbay

/-- A floating point number. `finite s m q` stands for `± m · 2 ^ q`, where `m < 2 ^ 53` and
either `2 ^ 52 ≤ m` or `q = -1074`, so each number has one form; zero keeps its sign. -/
inductive Binary64 where
  | nan
  | infinity (negative : Bool)
  | finite (negative : Bool) (mantissa : Nat) (exponent : Int)
  deriving DecidableEq, Inhabited

namespace Binary64

def leastExponent : Int := -1074

def greatestExponent : Int := 971

/-- The quotient rounded to the nearest integer, a half going to the even neighbour. -/
def roundQuotient (numerator denominator : Nat) : Nat :=
  let floor := numerator / denominator
  let twice := 2 * (numerator % denominator)
  if twice < denominator then floor
  else if denominator < twice then floor + 1
  else floor + floor % 2

/-- The exponent `e` with `2 ^ e ≤ numerator / denominator < 2 ^ (e + 1)`. -/
def magnitude (numerator denominator : Nat) : Int :=
  -- The logarithms of both sides give the exponent or the one above it.
  let guess : Int := (Nat.log2 numerator : Int) - Nat.log2 denominator
  if numerator * Nat.pow 2 (-guess).toNat < denominator * Nat.pow 2 guess.toNat then guess - 1
  else guess

/-- The number nearest to a quotient, ties going to the even mantissa. -/
def ofQuotient (negative : Bool) (numerator denominator : Nat) : Binary64 :=
  if numerator = 0 then .finite negative 0 leastExponent
  else
    let q := max (magnitude numerator denominator - 52) leastExponent
    let m := roundQuotient (numerator * Nat.pow 2 (-q).toNat) (denominator * Nat.pow 2 q.toNat)
    -- Rounding up may have made a mantissa of 54 digits.
    let (m, q) := if m = Nat.pow 2 53 then (Nat.pow 2 52, q + 1) else (m, q)
    if greatestExponent < q then .infinity negative else .finite negative m q

/-- The number nearest to `± coefficient · 10 ^ exponent`. Exponents so large or small that the
result is an infinity or a zero whatever the digits are never raised to a power. -/
def ofDecimal (negative : Bool) (coefficient : Nat) (exponent : Int) : Binary64 :=
  let places : Int := exponent + (Nat.toDigits 10 coefficient).length
  if coefficient = 0 || places < -330 then .finite negative 0 leastExponent
  else if 310 < places then .infinity negative
  else ofQuotient negative (coefficient * Nat.pow 10 exponent.toNat)
    (Nat.pow 10 (-exponent).toNat)

def ofInt (n : Int) : Binary64 :=
  ofQuotient (n < 0) n.natAbs 1

/-- Multiplies by a natural number, with one rounding. -/
def scale (factor : Nat) : Binary64 → Binary64
  | .nan => .nan
  | .infinity s => if factor = 0 then .nan else .infinity s
  | .finite s m q => ofQuotient s (m * factor * Nat.pow 2 q.toNat) (Nat.pow 2 (-q).toNat)

def toInt? : Binary64 → Option Int
  | .finite s m q =>
    let unit := Nat.pow 2 (-q).toNat
    if m % unit = 0 then
      let n : Int := m / unit * Nat.pow 2 q.toNat
      some (if s then -n else n)
    else none
  | _ => none

/-- Whether a number is zero, of either sign. -/
def isZero : Binary64 → Bool
  | .finite _ m _ => m == 0
  | _ => false

/-- Equality of numbers: the zeros are equal and nothing equals a NaN. -/
def same : Binary64 → Binary64 → Bool
  | .nan, _ => false
  | a, b => (a.isZero && b.isZero) || a == b

/-- Whether a number is at least zero; a NaN is not. -/
def isNonnegative : Binary64 → Bool
  | .nan => false
  | .infinity s => !s
  | .finite s m _ => !s || m == 0

end Binary64
end Patchbay
