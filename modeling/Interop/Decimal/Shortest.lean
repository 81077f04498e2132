/-
# The shortest decimal that reads back

Every positive binary fraction `m · 2 ^ q` stands for an interval of reals, those
that round to it.  Its interval ends half way to the neighbours; the ends belong
to it when `m` is even; where `m` is the least significand of its binade the
neighbour below is only half as far away.

`shortest` looks for the fewest digits.  For 1, 2, … 17 digits it takes the two
neighbours of the value on the grid of decimals with so many digits and stops at
the first grid that has one of them inside the interval.  When both are inside it
takes the nearer one, and the upper one when they are equally near.  All of it is
arithmetic on natural numbers.
-/

namespace Interop
namespace Decimal

/-- A positive number `significand · 2 ^ exponent` and whether the neighbour
below it is nearer than the one above. -/
structure Binary where
  significand : Nat
  exponent : Int
  tight : Bool

/-- The decimal fraction `digits · 10 ^ exponent`. -/
structure Fraction where
  digits : Nat
  exponent : Int
deriving DecidableEq

/-- `base ^ e` for a positive `e`, and 1 for any other. -/
def powPos (base : Nat) (e : Int) : Nat :=
  Nat.pow base e.toNat

/-- The number of decimal digits of `n`. -/
def digitCount (n : Nat) : Nat :=
  (Nat.toDigits 10 n).length

/-- The exponent of the leading digit of `num / den`. -/
def leadingExponent (num den : Nat) : Int :=
  let e : Int := (digitCount num : Int) - digitCount den
  if num * powPos 10 (-e) ≥ den * powPos 10 e then e else e - 1

/-- A value with its interval on a grid of decimals, brought to one denominator:
the value is `value / unit` steps of the grid above zero. -/
structure Grid where
  low : Nat
  value : Nat
  high : Nat
  unit : Nat
  closed : Bool

/-- Whether the interval holds the grid point `c`. -/
def Grid.holds (g : Grid) (c : Nat) : Bool :=
  let p := c * g.unit
  if g.closed then g.low ≤ p && p ≤ g.high else g.low < p && p < g.high

/-- The grid point next to the value that its interval holds, the nearer of two,
the upper of two that are equally near. -/
def Grid.nearest? (g : Grid) : Option Nat :=
  let below := g.value / g.unit
  let up := g.holds (below + 1)
  let down := below != 0 && g.holds below
  if up && (!down || 2 * (g.value % g.unit) ≥ g.unit) then some (below + 1)
  else if down then some below
  else none

/-- The value `b` and its interval on the grid of the multiples of
`10 ^ place`.  The interval is counted in quarters of the last binary place. -/
def Binary.grid (b : Binary) (place : Int) : Grid :=
  let e := b.exponent - 2
  let factor := powPos 2 e * powPos 10 (-place)
  { low := (4 * b.significand - if b.tight then 1 else 2) * factor
    value := 4 * b.significand * factor
    high := (4 * b.significand + 2) * factor
    unit := powPos 10 place * powPos 2 (-e)
    closed := b.significand % 2 == 0 }

/-- `d` without the zeros at the end of its digits, at most `fuel` of them. -/
def stripZeros : Nat → Fraction → Fraction
  | 0, d => d
  | fuel + 1, d =>
    if d.digits != 0 && d.digits % 10 == 0 then stripZeros fuel ⟨d.digits / 10, d.exponent + 1⟩
    else d

/-- The first hit on the grids with `count`, `count + 1`, … digits; `left` grids
are still to be tried. -/
def searchGrids (b : Binary) (lead : Int) (count : Nat) : Nat → Fraction
  | 0 => ⟨0, 0⟩
  | left + 1 =>
    let place := lead + 1 - count
    match (b.grid place).nearest? with
    | some c => ⟨c, place⟩
    | none => searchGrids b lead (count + 1) left

/-- The decimal with the fewest digits that rounds to `b`, and of those the one
nearest to it.  Seventeen digits suffice for every significand of 53 bits. -/
def shortest (b : Binary) : Fraction :=
  let lead := leadingExponent (b.significand * powPos 2 b.exponent) (powPos 2 (-b.exponent))
  stripZeros 17 (searchGrids b lead 1 17)

example : shortest ⟨0x10000000000000, -52, true⟩ = ⟨1, 0⟩ := by decide +kernel
example : shortest ⟨1, -1074, false⟩ = ⟨5, -324⟩ := by decide +kernel
example : shortest ⟨0x1999999999999A, -56, false⟩ = ⟨1, -1⟩ := by decide +kernel

end Decimal
end Interop
