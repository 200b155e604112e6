/-!
# Powers and the text of integers

Powers are taken of natural numbers by `Nat.pow` throughout. Natural numbers are written in
decimal, without leading zeros, and integers with a minus sign before the magnitude of a
negative one.
-/

namespace DottedQuery

namespace Decimal

/-- A power of two. -/
def twoPow (k : Nat) : Nat := Nat.pow 2 k

/-- A power of ten. -/
def tenPow (k : Nat) : Nat := Nat.pow 10 k

/-- The text of a natural number. -/
def natText (n : Nat) : String := String.ofList (Nat.toDigits 10 n)

/-- The text of an integer. -/
def intText : Int → String
  | .ofNat n => natText n
  | .negSucc n => "-" ++ natText (n + 1)

@[simp] theorem toList_natText (n : Nat) : (natText n).toList = Nat.toDigits 10 n := by
  simp [natText]

/-- Different numbers have different texts, for the digits tell the number. -/
theorem natText_inj {m n : Nat} : natText m = natText n ↔ m = n := by
  refine ⟨fun h => ?_, fun h => by rw [h]⟩
  simpa using congrArg (fun s => Nat.ofDigitChars 10 s.toList 0) h

end Decimal

end DottedQuery
