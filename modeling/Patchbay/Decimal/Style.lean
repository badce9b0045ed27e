import Patchbay.Decimal.Shortest

/-!
# Written forms of floating point numbers

A style says where positional notation ends and how the rest is spelled; the digits are always
the shortest that read back.
-/

namespace Patchbay.Decimal

structure Style where
  /-- The least decimal exponent that is written positionally. -/
  lowest : Int
  /-- The greatest decimal exponent that is written positionally. -/
  highest : Int
  exponentDigits : Nat
  nan : String
  infinity : String
  negativeInfinity : String

def digits (n : Nat) : List Char :=
  Nat.toDigits 10 n

def integer (n : Int) : List Char :=
  if n < 0 then '-' :: digits n.natAbs else digits n.natAbs

/-- Puts a point after the first `places` digits, and a zero where a side is empty. -/
def pointed (ds : List Char) (places : Nat) : List Char :=
  let fraction := ds.drop places
  ds.take places ++ '.' :: (if fraction.isEmpty then ['0'] else fraction)

/-- Positional notation of `0.d₁d₂… · 10 ^ point`. -/
def positional (ds : List Char) (point : Int) : List Char :=
  if point ≤ 0 then '0' :: '.' :: (List.replicate (-point).toNat '0' ++ ds)
  else pointed (ds ++ List.replicate (point.toNat - ds.length) '0') point.toNat

/-- Scientific notation of `d₁.d₂… · 10 ^ exponent`, with an explicit sign. -/
def scientific (width : Nat) (ds : List Char) (exponent : Int) : List Char :=
  let mantissa := match ds with
    | [] => []
    | [d] => [d]
    | d :: rest => d :: '.' :: rest
  let power := digits exponent.natAbs
  mantissa ++ 'e' :: (if exponent < 0 then '-' else '+') ::
    (List.replicate (width - power.length) '0' ++ power)

def Style.write (style : Style) : Binary64 → List Char
  | .nan => style.nan.toList
  | .infinity negative => (if negative then style.negativeInfinity else style.infinity).toList
  | .finite negative m q =>
    let d := shortest m q
    let ds := digits d.coefficient
    let exponent : Int := d.exponent + ds.length - 1
    let body :=
      if style.lowest ≤ exponent && exponent ≤ style.highest then
        positional ds (exponent + 1)
      else scientific style.exponentDigits ds exponent
    if negative then '-' :: body else body

/-- The style of numbers that stand in plain text. -/
def plain : Style where
  lowest := -4
  highest := 15
  exponentDigits := 2
  nan := "nan"
  infinity := "inf"
  negativeInfinity := "-inf"

/-- The last positional power of ten, and the first one beyond it. -/
example : plain.write (.ofDecimal false 1 15) = "1000000000000000.0".toList ∧
    plain.write (.ofDecimal false 1 16) = "1e+16".toList := by decide +kernel

/-- The least positional power of ten, and the first one below it. -/
example : plain.write (.ofDecimal true 1 (-4)) = "-0.0001".toList ∧
    plain.write (.ofDecimal true 1 (-5)) = "-1e-05".toList := by decide +kernel

end Patchbay.Decimal
