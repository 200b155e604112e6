import DottedQuery.Decimal.Binary64

/-!
# The shortest decimal of a number

A finite number of the 64-bit format stands for every real that rounds to it: an interval around
the number, its ends included exactly when the mantissa is even. The *shortest decimal* is the
point of the coarsest decimal grid that meets this interval, the one nearest to the number when
the grid has two such points (`DottedQuery.Decimal.shortest`). When both are equally near, the
`Tie` decides.

If a point of a grid lies in the interval, so does one of the two neighbours of the number on
that grid, so only those are tried; seventeen digits always suffice. Everything is compared in
natural numbers: quantities are counted in units of `2 ^ -1076`, a quarter of the smallest
positive number.
-/

namespace DottedQuery

namespace Decimal

/-- Which of two equally near decimals is chosen. -/
inductive Tie where
  /-- The larger one. -/
  | up : Tie
  /-- The one whose last digit is even. -/
  | even : Tie
deriving DecidableEq, Repr

/-- A positive decimal number: `digits` times ten to the power `exponent`. -/
structure Numeral where
  /-- The digits, read as one number; the last one is not `0`. -/
  digits : Nat
  /-- The power of ten of the last digit. -/
  exponent : Int
deriving DecidableEq, Repr

/-- The reals that round to a positive finite number, in units of `2 ^ -1076`. -/
structure Neighbourhood where
  /-- The number itself. -/
  centre : Nat
  /-- The lower end. -/
  low : Nat
  /-- The upper end. -/
  high : Nat
  /-- Whether the ends belong to it. -/
  closed : Bool

/-- The neighbourhood of a finite number. Below a power of two the numbers lie twice as close,
so there the lower end is only half as far away. -/
def neighbourhood (x : Binary64) : Neighbourhood where
  centre := 4 * x.mantissa * twoPow x.scale
  low :=
    let below := if x.fractionField = 0 && 1 < x.exponentField then 1 else 2
    (4 * x.mantissa - below) * twoPow x.scale
  high := (4 * x.mantissa + 2) * twoPow x.scale
  closed := x.mantissa % 2 = 0

/-- The unit of a neighbourhood: one is `unit` such steps. -/
def unit : Nat := twoPow 1076

/-- Whether `n * up / down` lies in the neighbourhood. -/
def Neighbourhood.holds (b : Neighbourhood) (n up down : Nat) : Bool :=
  let v := n * up * unit
  if b.closed then b.low * down ≤ v && v ≤ b.high * down
  else b.low * down < v && v < b.high * down

/-- The power of ten `10 ^ k` as a quotient. -/
def tenPower (k : Int) : Nat × Nat := (tenPow k.toNat, tenPow (-k).toNat)

/-- The nearest point to the number on the grid of the multiples of `10 ^ k`, if its
neighbourhood holds one: the multiple is returned. -/
def onGrid? (tie : Tie) (b : Neighbourhood) (k : Int) : Option Nat :=
  let (up, down) := tenPower k
  let below := b.centre * down / (up * unit)
  let rest := b.centre * down - below * (up * unit)
  match b.holds below up down, b.holds (below + 1) up down with
  | false, false => none
  | true, false => some below
  | false, true => some (below + 1)
  | true, true =>
    if 2 * rest < up * unit then some below
    else if up * unit < 2 * rest then some (below + 1)
    else
      match tie with
      | .up => some (below + 1)
      | .even => some (if below % 2 = 0 then below else below + 1)

/-- The number of decimal digits of a natural number, at least one. -/
def digitCount (n : Nat) : Nat := (Nat.toDigits 10 n).length

/-- The power of ten of the leading digit of a positive finite number. -/
def leadingPower (x : Binary64) : Int :=
  let centre := (neighbourhood x).centre
  if unit ≤ centre then (digitCount (centre / unit) : Int) - 1
  else
    -- The digits of `1 / centre`, rounded up, count the places before the first one.
    -(digitCount ((unit + centre - 1) / centre - 1) : Int)

/-- Moves trailing zeros of the digits into the exponent; `fuel` bounds their number. -/
def stripZeros : Nat → Nat → Int → Numeral
  | 0, n, k => ⟨n, k⟩
  | fuel + 1, n, k => if n ≠ 0 ∧ n % 10 = 0 then stripZeros fuel (n / 10) (k + 1) else ⟨n, k⟩

/-- The first grid, from the one of `10 ^ k` down, that meets the neighbourhood. -/
def firstGrid (tie : Tie) (b : Neighbourhood) : Nat → Int → Numeral
  | 0, k => stripZeros 20 ((onGrid? tie b k).getD 0) k
  | fuel + 1, k =>
    match onGrid? tie b k with
    | some n => stripZeros 20 n k
    | none => firstGrid tie b fuel (k - 1)

/-- **The shortest decimal** that rounds to the magnitude of a finite number other than zero. -/
def shortest (tie : Tie) (x : Binary64) : Numeral :=
  firstGrid tie (neighbourhood x) 17 (leadingPower x)

end Decimal

end DottedQuery
