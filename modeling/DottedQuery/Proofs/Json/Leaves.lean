import DottedQuery.Json.Number
import DottedQuery.Json.Writer
import Mathlib.Data.List.Basic

/-!
# Strings and integers are read back

The leaves of a JSON text on which writing and reading have to agree: strings, whose characters may
be escaped, and integers, which are written in decimal.

* `DottedQuery.Json.scanString_escapes` – **a string is read to its end**, and no further, whatever
  stands behind the closing quote;
* `DottedQuery.Json.text?_letters` – **its letters mean the text** that was written;
* `DottedQuery.Json.scanUnsigned_toDigits` – the digits of a number are read as long as nothing
  follows that could belong to it (`DottedQuery.Json.EndsNumber`);
* `DottedQuery.Json.number?_ofInt` – **they mean the integer** that was written, over the whole range
  of 64 bits.

An escape with four hexadecimal digits is read as a unit of UTF-16 and not as a character. Those
that are written stand for control characters, which are far from the surrogates, so each of them
is a character of its own.
-/

namespace DottedQuery

namespace Json

/-! ### Strings -/

/-- The letter that a character is read back as: most are themselves, and a control character
without a short escape is the unit of UTF-16 with its number. -/
def Letter.ofChar (c : Char) : Letter :=
  if c.toNat < 0x20 ∧ c ∉ ['\x08', '\t', '\n', '\x0c', '\r'] then .unit c.toNat else .plain c

/-- The letters that a text is read back as. -/
def letters (s : String) : List Letter := s.toList.map Letter.ofChar

theorem hexValue?_hexDigit : ∀ d < 16, hexValue? (hexDigit d) = some d := by
  decide

/-- The number of a control character is read back. -/
theorem hexUnit?_hexDigits {n : Nat} (h : n < 0x20) :
    hexUnit? '0' '0' (hexDigit (n / 16)) (hexDigit (n % 16)) = some n := by
  have hzero : hexValue? '0' = some 0 := by decide
  have hhigh := hexValue?_hexDigit (n / 16) (by omega)
  have hlow := hexValue?_hexDigit (n % 16) (by omega)
  have hsum : ((0 * 16 + 0) * 16 + n / 16) * 16 + n % 16 = n := by omega
  simp only [hexUnit?, hzero, hhigh, hlow, Option.bind_eq_bind, Option.bind_some, hsum]
  rfl

theorem scanString_quote (rest : List Char) : scanString ('"' :: rest) = some ([], rest) := by
  rw [scanString.eq_def]
  rfl

theorem scanString_unit {w x y z : Char} {n : Nat} (h : hexUnit? w x y z = some n)
    (rest : List Char) :
    scanString ('\\' :: 'u' :: w :: x :: y :: z :: rest) =
      (scanString rest).map fun p => (.unit n :: p.1, p.2) := by
  rw [scanString.eq_def]
  simp [h]

theorem scanString_plain {c : Char} (hquote : c ≠ '"') (hslash : c ≠ '\\') (hc : ¬c.toNat < 0x20)
    (rest : List Char) :
    scanString (c :: rest) = (scanString rest).map fun p => (.plain c :: p.1, p.2) := by
  rw [scanString.eq_def]
  simp [hquote, hslash, hc]

/-- **A character is read back as its letter**, and what follows it is read on. -/
theorem scanString_escape (c : Char) (rest : List Char) :
    scanString (escape c ++ rest) =
      (scanString rest).map fun p => (Letter.ofChar c :: p.1, p.2) := by
  unfold escape
  split
  -- the short escapes
  iterate 7 · simp [scanString, shortEscape?, Letter.ofChar]
  next hquote hslash hb ht hn hf hr =>
  split
  · next hcontrol =>
    have hshort : c ∉ ['\x08', '\t', '\n', '\x0c', '\r'] := by
      simp only [List.mem_cons, List.not_mem_nil, or_false, not_or]
      exact ⟨hb, ht, hn, hf, hr⟩
    rw [Letter.ofChar, if_pos ⟨hcontrol, hshort⟩]
    exact scanString_unit (hexUnit?_hexDigits hcontrol) rest
  · next hplain =>
    rw [Letter.ofChar, if_neg fun h => hplain h.1]
    exact scanString_plain hquote hslash hplain rest

/-- **A string is read to its closing quote.** -/
theorem scanString_escapes (cs rest : List Char) :
    scanString (cs.flatMap escape ++ '"' :: rest) = some (cs.map Letter.ofChar, rest) := by
  induction cs with
  | nil => exact scanString_quote rest
  | cons c cs ih =>
    rw [List.flatMap_cons, List.append_assoc, scanString_escape, ih]
    rfl

/-- The letter of a character means this character, before any letters. -/
theorem chars?_ofChar (c : Char) (ls : List Letter) :
    chars? (Letter.ofChar c :: ls) = (chars? ls).map (c :: ·) := by
  unfold Letter.ofChar
  split
  · next h =>
    -- control characters are no surrogates
    have hhigh : isHighSurrogate c.toNat = false := by
      simp only [isHighSurrogate, Bool.and_eq_false_iff, decide_eq_false_iff_not]
      omega
    have hlow : isLowSurrogate c.toNat = false := by
      simp only [isLowSurrogate, Bool.and_eq_false_iff, decide_eq_false_iff_not]
      omega
    rw [chars?.eq_def]
    simp only [hhigh, hlow, Bool.false_eq_true, if_false, Char.ofNat_toNat]
  · rfl

theorem chars?_map_ofChar (cs : List Char) : chars? (cs.map Letter.ofChar) = some cs := by
  induction cs with
  | nil => rfl
  | cons c cs ih => rw [List.map_cons, chars?_ofChar, ih, Option.map_some]

/-- **The letters of a text mean the text.** -/
@[simp] theorem text?_letters (s : String) : text? (letters s) = some s := by
  rw [text?, letters, chars?_map_ofChar, Option.map_some, String.ofList_toList]

/-! ### Integers -/

/-- What follows could not belong to a number before it. -/
def EndsNumber (rest : List Char) : Prop :=
  ∀ c, rest.head? = some c → c.isDigit = false ∧ c ≠ '.' ∧ c ≠ 'e' ∧ c ≠ 'E'

theorem endsNumber_nil : EndsNumber [] := by
  simp [EndsNumber]

theorem endsNumber_cons {c : Char} (h : c.isDigit = false ∧ c ≠ '.' ∧ c ≠ 'e' ∧ c ≠ 'E')
    (rest : List Char) : EndsNumber (c :: rest) := by
  rintro d hd
  exact Option.some.inj hd ▸ h

/-- Digits are read until something else follows. -/
theorem scanDigits_append {ds rest : List Char} (hne : ds ≠ []) (hds : ∀ c ∈ ds, c.isDigit = true)
    (hrest : EndsNumber rest) : scanDigits (ds ++ rest) = some (ds, rest) := by
  have hstop : rest.takeWhile Char.isDigit = [] ∧ rest.dropWhile Char.isDigit = rest := by
    cases rest with
    | nil => exact ⟨rfl, rfl⟩
    | cons c cs => simp [(hrest c rfl).1]
  obtain ⟨d, ds, rfl⟩ := List.exists_cons_of_ne_nil hne
  obtain ⟨hd, hds⟩ := List.forall_mem_cons.mp hds
  rw [List.cons_append, scanDigits, if_pos hd, List.takeWhile_append_of_pos hds,
    List.dropWhile_append_of_pos hds, hstop.1, hstop.2, List.append_nil]

/-- No positive number is written with a zero in front. -/
theorem head?_toDigits_ne_zero {n : Nat} (h : 0 < n) : (Nat.toDigits 10 n).head? ≠ some '0' := by
  induction n using Nat.strongRecOn with
  | ind n ih =>
    by_cases hn : n < 10
    · rw [Nat.toDigits_of_lt_base hn, List.head?_cons, ne_eq, Option.some.injEq,
        Nat.digitChar_eq_zero]
      omega
    · rw [Nat.toDigits_of_base_le (by omega) (by omega),
        List.head?_append_of_ne_nil _ Nat.toDigits_ne_nil]
      exact ih (n / 10) (by omega) (by omega)

/-- The digits of a number are read as its digits before the point. -/
theorem scanWhole_toDigits (n : Nat) {rest : List Char} (hrest : EndsNumber rest) :
    scanWhole (Nat.toDigits 10 n ++ rest) = some (Nat.toDigits 10 n, rest) := by
  have hdigits : scanDigits (Nat.toDigits 10 n ++ rest) = some (Nat.toDigits 10 n, rest) :=
    scanDigits_append Nat.toDigits_ne_nil
      (fun _ => Nat.isDigit_of_mem_toDigits (by omega) (by omega)) hrest
  rcases Nat.eq_zero_or_pos n with rfl | hn
  · rfl
  · have hfirst : (Nat.toDigits 10 n ++ rest).head? ≠ some '0' := by
      rw [List.head?_append_of_ne_nil _ Nat.toDigits_ne_nil]
      exact head?_toDigits_ne_zero hn
    unfold scanWhole
    split
    · next heq => exact absurd (congrArg List.head? heq) hfirst
    · exact hdigits

/-- **An integer is read to its last digit.** -/
theorem scanUnsigned_toDigits (negative : Bool) (n : Nat) {rest : List Char}
    (hrest : EndsNumber rest) :
    scanUnsigned negative (Nat.toDigits 10 n ++ rest) =
      some (⟨negative, Nat.toDigits 10 n, none, none⟩, rest) := by
  have hfraction : scanFraction rest = some (none, rest) := by
    unfold scanFraction
    split
    · next cs => exact absurd rfl (hrest '.' rfl).2.1
    · rfl
  have hexponent : scanExponent rest = some (none, rest) := by
    cases rest with
    | nil => rfl
    | cons c cs =>
      obtain ⟨-, -, he, hE⟩ := hrest c rfl
      rw [scanExponent, if_neg (by simp [he, hE])]
  simp only [scanUnsigned, scanWhole_toDigits n hrest, hfraction, hexponent]

/-- Digits are gathered as long as the number they make stays below the bound. -/
theorem gather_eq {bound : Nat} {ds : List Char} {n : Nat}
    (h : Nat.ofDigitChars 10 ds n < bound) :
    gather bound n ds = (Nat.ofDigitChars 10 ds n, []) := by
  induction ds generalizing n with
  | nil => rfl
  | cons d ds ih =>
    have hstep : n * 10 + digitValue d = 10 * n + (d.toNat - '0'.toNat) := by
      rw [Nat.mul_comm, digitValue]
    rw [Nat.ofDigitChars_cons] at h ⊢
    -- the digits that follow only make the number larger
    have hle : n * 10 + digitValue d ≤
        Nat.ofDigitChars 10 ds (10 * n + (d.toNat - '0'.toNat)) := by
      rw [hstep, Nat.ofDigitChars_eq_ofDigitChars_zero]
      exact Nat.le_add_right_of_le (Nat.le_mul_of_pos_left _ (Nat.pow_pos (by omega)))
    rw [gather, if_pos (Nat.lt_of_le_of_lt hle h), hstep, ih h]

theorem gather_toDigits {bound n : Nat} (h : n < bound) :
    gather bound 0 (Nat.toDigits 10 n) = (n, []) := by
  rw [gather_eq (by rwa [Nat.ofDigitChars_ten_toDigits]), Nat.ofDigitChars_ten_toDigits]

/-- An integer as it is written. -/
def NumberText.ofInt : Int → NumberText
  | .ofNat n => ⟨false, Nat.toDigits 10 n, none, none⟩
  | .negSucc n => ⟨true, Nat.toDigits 10 (n + 1), none, none⟩

/-- **What is written for an integer of 64 bits means that integer**, the least one included. -/
theorem number?_ofInt (n : Int64) : (NumberText.ofInt n.toInt).number? = some (.int n) := by
  have hlow : -9223372036854775808 ≤ n.toInt := n.le_toInt
  have hhigh : n.toInt < 9223372036854775808 := n.toInt_lt
  suffices hint : (NumberText.ofInt n.toInt).int? = some n by rw [NumberText.number?, hint]
  have hback : Int64.ofInt n.toInt = n := n.ofInt_toInt
  rcases hn : n.toInt with m | m
  · rw [hn, Int.ofNat_eq_natCast] at hhigh hback
    rw [Int64.ofInt_eq_ofNat] at hback
    have hgather := gather_toDigits (show m < significandBound by rw [significandBound]; omega)
    simp only [NumberText.ofInt, NumberText.int?, hgather, Option.isSome_none, Bool.or_self,
      Bool.false_eq_true, if_false, hback]
    rw [if_pos (by rw [integerBound]; omega)]
  · rw [hn] at hlow hback
    have hgather :=
      gather_toDigits (show m + 1 < significandBound by rw [significandBound]; omega)
    simp only [NumberText.ofInt, NumberText.int?, hgather, Option.isSome_none, Bool.or_self,
      Bool.false_eq_true, if_false, if_true]
    rw [if_pos (by rw [integerBound]; omega), ← hback]
    rfl

end Json

end DottedQuery
