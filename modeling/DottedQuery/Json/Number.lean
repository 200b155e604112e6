import DottedQuery.Decimal.Binary64
import DottedQuery.Json.Token

/-!
# What a number means

A number of a JSON text that is written without point and exponent, and that fits a signed
integer of 64 bits, is that integer; every other number is a float
(`DottedQuery.Json.NumberText.number?`). `-0` is the float negative zero, for no integer is.

A float is found in two roundings, so it may miss the nearest one by a bit. The digits are
gathered into one significand below `2 ^ 64`, from the first on: those before the point that no
longer fit are replaced by zeros, those after it are dropped (`DottedQuery.Json.significand`).
The significand is rounded to a float and then multiplied or divided by the float nearest to the
power of ten that is left, with a second rounding (`DottedQuery.Json.scaleTen`). A number too
large for the format is refused, one too small is zero.
-/

namespace DottedQuery

namespace Json

open Decimal (Binary64)

/-- The number that a JSON number stands for. -/
inductive Number where
  /-- An integer. -/
  | int (n : Int64) : Number
  /-- A float. -/
  | float (x : Binary64) : Number
deriving DecidableEq, Repr

/-- The value of a decimal digit. -/
def digitValue (c : Char) : Nat := c.toNat - '0'.toNat

/-- The bound on significands, `2 ^ 64`. -/
def significandBound : Nat := 18446744073709551616

/-- Appends digits to a number as long as it stays below `bound`; the digits that are left over
are returned with it. -/
def gather (bound : Nat) : Nat → List Char → Nat × List Char
  | n, [] => (n, [])
  | n, c :: cs =>
    if n * 10 + digitValue c < bound then gather bound (n * 10 + digitValue c) cs
    else (n, c :: cs)

/-- The significand of a number and the power of ten it is to be multiplied by, its exponent
left aside. -/
def significand (t : NumberText) : Nat × Int :=
  let (n, spare) := gather significandBound 0 t.whole
  match t.fraction with
  | none => (n, spare.length)
  | some digits =>
    let (m, dropped) := gather significandBound n digits
    (m, (spare.length : Int) - ((digits.length : Int) - dropped.length))

/-- The float nearest to a power of ten. -/
def tenPower (k : Nat) : Binary64 := Binary64.ofNat (Decimal.tenPow k)

/-- **The magnitude of a float**: `n` times ten to the power `e`, unless it is too large. Powers
below `10 ^ -308` are divided by in two steps, and a number that is still too small after them
is zero. -/
def scaleTen (n : Nat) (e : Int) : Option Binary64 :=
  let f := Binary64.ofNat n
  if n = 0 then some Binary64.zero
  else if 308 < e then none
  else if 0 ≤ e then
    let x := f.mul (tenPower e.toNat)
    if x.isFinite then some x else none
  else if -308 ≤ e then some (f.div (tenPower (-e).toNat))
  else if -616 ≤ e then some ((f.div (tenPower 308)).div (tenPower (-e - 308).toNat))
  else some Binary64.zero

/-- The bound on the digits of an exponent, `2 ^ 31`. -/
def exponentBound : Nat := 2147483648

/-- The bound on positive integers, `2 ^ 63`; it is itself the magnitude of the least integer.
-/
def integerBound : Nat := 9223372036854775808

namespace NumberText

/-- The magnitude of the float that a number stands for. An exponent of more digits than fit a
signed integer of 32 bits makes the number zero, or too large when it is positive and the
significand is not zero. -/
def magnitude? (t : NumberText) : Option Binary64 :=
  let (n, e) := significand t
  match t.exponent with
  | none => scaleTen n e
  | some (negative, digits) =>
    match gather exponentBound 0 digits with
    | (k, []) => scaleTen n (if negative then e - k else e + k)
    | (_, _ :: _) => if n = 0 ∨ negative then some Binary64.zero else none

/-- The integer that a number stands for: it is written without point and exponent, is not `-0`,
and fits 64 bits. -/
def int? (t : NumberText) : Option Int64 :=
  if t.fraction.isSome || t.exponent.isSome then none
  else
    match gather significandBound 0 t.whole with
    | (n, []) =>
      if t.negative then
        if 0 < n ∧ n ≤ integerBound then some (Int64.ofInt (-n)) else none
      else if n < integerBound then some (Int64.ofNat n)
      else none
    | (_, _ :: _) => none

/-- **The number a JSON number stands for**, if it is not too large. -/
def number? (t : NumberText) : Option Number :=
  match t.int? with
  | some n => some (.int n)
  | none => (t.magnitude?).map fun x => .float (x.withSign t.negative)

end NumberText

end Json

end DottedQuery
