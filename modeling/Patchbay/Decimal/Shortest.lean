import Patchbay.Decimal.Binary64

/-!
# The shortest decimal that reads back

Between a number and its neighbours lie the reals that round to it. The shortest decimal is found
on the coarsest decimal grid that has a point among them; of two such points the nearer one is
taken, and the even one of two that are equally near.
-/

namespace Patchbay.Decimal

/-- A decimal `coefficient · 10 ^ exponent`. -/
structure Digits where
  coefficient : Nat
  exponent : Int
  deriving DecidableEq, Inhabited

/-- The reals that round to `m · 2 ^ q`, in quarters of `2 ^ q`. Below a power of two the gap to
the next smaller number is half as wide. -/
structure Interval where
  low : Nat
  value : Nat
  high : Nat
  /-- Ties round to an even mantissa, so that the ends belong to it. -/
  closed : Bool

def Interval.around (m : Nat) (q : Int) : Interval where
  low := if m = Nat.pow 2 52 && Binary64.leastExponent < q then 4 * m - 1 else 4 * m - 2
  value := 4 * m
  high := 4 * m + 2
  closed := m % 2 = 0

/-- The point of the grid `10 ^ t` that rounds to the number, the nearest if there are two. -/
def Interval.point? (i : Interval) (q t : Int) : Option Nat :=
  -- Both sides of a comparison are scaled to integers.
  let up := Nat.pow 2 (q - 2).toNat * Nat.pow 10 (-t).toNat
  let down := Nat.pow 2 (2 - q).toNat * Nat.pow 10 t.toNat
  let inside (c : Nat) : Bool :=
    if i.closed then i.low * up ≤ c * down && c * down ≤ i.high * up
    else i.low * up < c * down && c * down < i.high * up
  let below := i.value * up / down
  match inside below, inside (below + 1) with
  | true, true =>
    let left := i.value * up - below * down
    let right := (below + 1) * down - i.value * up
    if left < right then some below
    else if right < left then some (below + 1)
    else some (below + below % 2)
  | true, false => some below
  | false, true => some (below + 1)
  | false, false => none

/-- Tries ever finer grids, from `10 ^ t` on. -/
def Interval.search (i : Interval) (q : Int) : Nat → Int → Digits
  | 0, t => ⟨i.value, t⟩
  | fuel + 1, t =>
    match i.point? q t with
    | some c => ⟨c, t⟩
    | none => i.search q fuel (t - 1)

/-- The shortest decimal that rounds to `m · 2 ^ q`. The first grid tried is coarser than the
number itself, and seventeen digits always suffice. -/
def shortest (m : Nat) (q : Int) : Digits :=
  if m = 0 then ⟨0, 0⟩
  else
    -- 0.30103 is a little more than the decimal logarithm of 2.
    let start := (Nat.log2 m + 1 + q) * 30103 / 100000 + 2
    (Interval.around m q).search q 30 start

end Patchbay.Decimal
