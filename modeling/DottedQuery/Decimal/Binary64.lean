import DottedQuery.Decimal.Integer

/-!
# Binary floating point in 64 bits

A number of the format is its bit pattern (`DottedQuery.Decimal.Binary64`), so equality of
numbers is equality of patterns and a NaN equals itself. All arithmetic is done on natural
numbers: a finite number is a sign, a mantissa below `2 ^ 53` and a power of two
(`DottedQuery.Decimal.Binary64.mantissa`, `DottedQuery.Decimal.Binary64.scale`), and
`DottedQuery.Decimal.Binary64.nearest` rounds a quotient of natural numbers to the number
nearest to it, a tie to the even mantissa, a quotient too large for the format to infinity.
-/

namespace DottedQuery

namespace Decimal

/-- A number in the 64-bit binary format, given by its bits. -/
structure Binary64 where
  /-- Sign, biased exponent and fraction, from the highest bit down. -/
  bits : UInt64
deriving DecidableEq, Repr

namespace Binary64

/-! ### The fields of the pattern -/

/-- Whether the sign bit is set. -/
def isNegative (x : Binary64) : Bool := twoPow 63 ≤ x.bits.toNat

/-- The biased exponent. -/
def exponentField (x : Binary64) : Nat := x.bits.toNat / twoPow 52 % twoPow 11

/-- The fraction below the leading bit. -/
def fractionField (x : Binary64) : Nat := x.bits.toNat % twoPow 52

/-- Whether the pattern stands for a number, and neither for an infinity nor for a NaN. -/
def isFinite (x : Binary64) : Bool := x.exponentField ≠ 2047

/-- Whether the pattern stands for no number at all. -/
def isNaN (x : Binary64) : Bool := x.exponentField = 2047 && x.fractionField ≠ 0

/-- Whether the pattern stands for a zero, of either sign. -/
def isZero (x : Binary64) : Bool := x.exponentField = 0 && x.fractionField = 0

/-- Equality of numbers: the two zeros are equal, and a pattern that is no number equals
nothing. -/
def equal (x y : Binary64) : Bool := !x.isNaN && (x = y || x.isZero && y.isZero)

/-- The mantissa of a finite number, the leading bit included. -/
def mantissa (x : Binary64) : Nat :=
  if x.exponentField = 0 then x.fractionField else twoPow 52 + x.fractionField

/-- The power of two of the last bit of the mantissa, counted from the smallest one: a finite
number is `mantissa * 2 ^ scale / 2 ^ 1074`. -/
def scale (x : Binary64) : Nat := x.exponentField - 1

/-- The magnitude of a finite number as a quotient of natural numbers. -/
def quotient (x : Binary64) : Nat × Nat := (x.mantissa * twoPow x.scale, twoPow 1074)

/-! ### Rounding -/

/-- The quotient rounded to the nearest natural number, a tie to the even one. -/
def roundHalfEven (num den : Nat) : Nat :=
  let q := num / den
  let r := num % den
  if 2 * r < den then q
  else if den < 2 * r then q + 1
  else if q % 2 = 0 then q else q + 1

/-- The pattern of infinity without its sign. -/
def infinityPattern : Nat := 2047 * twoPow 52

/-- The scale at which `num / den` has 53 bits before the binary point, or the least scale when
the quotient is too small for that. -/
def scaleOf (num den : Nat) : Nat :=
  let up := num * twoPow 1074
  -- The binary logarithm of the quotient, counted from the smallest power of two.
  let guess := up.log2 - den.log2
  let level := if up < den * twoPow guess then guess - 1 else guess
  level - 52

/-- The pattern without sign of the number nearest to `num / den`. A mantissa that rounds up to
`2 ^ 53` carries into the exponent by itself, because the exponent stands above the fraction. -/
def nearestPattern (num den : Nat) : Nat :=
  let s := scaleOf num den
  min infinityPattern (s * twoPow 52 + roundHalfEven (num * twoPow 1074) (den * twoPow s))

/-- **Rounding to nearest**: the number nearest to `num / den`, a tie to the even mantissa, and
infinity for what is too large. -/
def nearest (negative : Bool) (num den : Nat) : Binary64 :=
  ⟨UInt64.ofNat ((if negative then twoPow 63 else 0) + nearestPattern num den)⟩

/-- The product of the magnitudes of two finite numbers, rounded. -/
def mul (x y : Binary64) : Binary64 :=
  let (a, b) := x.quotient
  let (c, d) := y.quotient
  nearest false (a * c) (b * d)

/-- The quotient of the magnitudes of two finite numbers, rounded. -/
def div (x y : Binary64) : Binary64 :=
  let (a, b) := x.quotient
  let (c, d) := y.quotient
  nearest false (a * d) (b * c)

/-- The natural number, rounded. -/
def ofNat (n : Nat) : Binary64 := nearest false n 1

/-- Positive zero. -/
def zero : Binary64 := ⟨0⟩

/-- The number with the sign bit set or cleared. -/
def withSign (negative : Bool) (x : Binary64) : Binary64 :=
  ⟨UInt64.ofNat ((if negative then twoPow 63 else 0) + x.bits.toNat % twoPow 63)⟩

end Binary64

end Decimal

end DottedQuery
