import DottedQuery.Decimal.Integer
import DottedQuery.Decimal.Shortest

/-!
# The text of a number

`DottedQuery.Decimal.Layout` gathers what a format decides about the text of a number once its
shortest decimal is known: which of two equally near decimals is taken, which numbers are
written out in full, what follows a whole number, and the words for the patterns that are no
finite number. `DottedQuery.Decimal.Layout.render` writes a number accordingly. Beyond the
powers of ten that are written out, the first digit stands before the point and the power
follows after an `e` with its sign.
-/

namespace DottedQuery

namespace Decimal

/-- What a format decides about the text of a number. -/
structure Layout where
  /-- The choice between two equally near shortest decimals. -/
  tie : Tie
  /-- The least and the greatest power of ten of the first digit for which the number is written
  out in full; every number is when there is none. -/
  fullRange : Option (Int × Int)
  /-- What follows a whole number that is written out. -/
  wholeMark : String
  /-- The word for infinity. -/
  infinity : String
  /-- The word for negative infinity. -/
  negativeInfinity : String
  /-- The word for a pattern that is no number. -/
  notANumber : String

/-- The given number of zeros. -/
def zeros (n : Nat) : String := String.ofList (List.replicate n '0')

namespace Numeral

/-- The power of ten of the first digit. -/
def leading (d : Numeral) : Int := d.exponent + digitCount d.digits - 1

/-- The decimal written out in full; `mark` follows a whole number. -/
def full (mark : String) (d : Numeral) : String :=
  let text := natText d.digits
  if 0 ≤ d.exponent then text ++ zeros d.exponent.toNat ++ mark
  else
    let places := (-d.exponent).toNat
    let count := digitCount d.digits
    if places < count then
      String.ofList (text.toList.take (count - places)) ++ "." ++
        String.ofList (text.toList.drop (count - places))
    else "0." ++ zeros (places - count) ++ text

/-- The decimal with one digit before the point and its power of ten after it. -/
def powered (d : Numeral) : String :=
  let text := (natText d.digits).toList
  let rest := text.drop 1
  let power := d.leading
  let fraction := if rest.isEmpty then "" else "." ++ String.ofList rest
  let sign := if power < 0 then "-" else "+"
  String.ofList (text.take 1) ++ fraction ++ "e" ++ sign ++ natText power.natAbs

end Numeral

namespace Layout

/-- The text of the magnitude of a finite number. -/
def magnitude (l : Layout) (x : Binary64) : String :=
  if x.mantissa = 0 then "0" ++ l.wholeMark
  else
    let d := shortest l.tie x
    match l.fullRange with
    | none => d.full l.wholeMark
    | some (least, greatest) =>
      if least ≤ d.leading ∧ d.leading ≤ greatest then d.full l.wholeMark else d.powered

/-- **The text of a number** in the layout. -/
def render (l : Layout) (x : Binary64) : String :=
  if x.isNaN then l.notANumber
  else if x.isFinite then (if x.isNegative then "-" else "") ++ l.magnitude x
  else if x.isNegative then l.negativeInfinity
  else l.infinity

end Layout

end Decimal

end DottedQuery
