/-!
# The tokens of JSON

JSON text is cut into tokens before it is read: brackets and separators, the three words,
strings and numbers. A token keeps what the text says and judges only its form. A string is a
list of `Letter`s, where an escape of a UTF-16 unit may stand for half a character, and a number
is the digits it is written with; what they mean, and whether they mean anything, is settled by
`DottedQuery.Json.text?` and `DottedQuery.Json.NumberText.number?`.

`DottedQuery.Json.tokens` ends because a token takes at least one character off the text
(`DottedQuery.Json.length_of_scan`).
-/

namespace DottedQuery

namespace Json

/-! ### Numbers -/

/-- A number as it is written. -/
structure NumberText where
  /-- Whether it begins with a minus sign. -/
  negative : Bool
  /-- The digits before the point. -/
  whole : List Char
  /-- The digits after the point, if there is one. -/
  fraction : Option (List Char)
  /-- The exponent, if there is one: whether it is negative, and its digits. -/
  exponent : Option (Bool × List Char)
deriving DecidableEq, Repr

/-- The digits at the beginning, at least one, and what follows them. -/
def scanDigits : List Char → Option (List Char × List Char)
  | [] => none
  | c :: cs =>
    if c.isDigit then some (c :: cs.takeWhile Char.isDigit, cs.dropWhile Char.isDigit) else none

/-- The digits before the point: `0` alone, or digits that do not begin with it. -/
def scanWhole : List Char → Option (List Char × List Char)
  | '0' :: cs => some (['0'], cs)
  | cs => scanDigits cs

/-- The point and the digits after it, if the text goes on with a point. -/
def scanFraction : List Char → Option (Option (List Char) × List Char)
  | '.' :: cs => (scanDigits cs).map fun (digits, rest) => (some digits, rest)
  | cs => some (none, cs)

/-- The sign of an exponent; it may be missing. -/
def scanSign : List Char → Bool × List Char
  | '+' :: cs => (false, cs)
  | '-' :: cs => (true, cs)
  | cs => (false, cs)

/-- The exponent, if the text goes on with one. -/
def scanExponent : List Char → Option (Option (Bool × List Char) × List Char)
  | [] => some (none, [])
  | c :: cs =>
    if c = 'e' ∨ c = 'E' then
      (scanDigits (scanSign cs).2).map fun (digits, rest) =>
        (some ((scanSign cs).1, digits), rest)
    else some (none, c :: cs)

/-- A number without its sign, and what follows it. -/
def scanUnsigned (negative : Bool) (cs : List Char) : Option (NumberText × List Char) :=
  match scanWhole cs with
  | none => none
  | some (whole, cs) =>
    match scanFraction cs with
    | none => none
    | some (fraction, cs) =>
      match scanExponent cs with
      | none => none
      | some (exponent, cs) => some (⟨negative, whole, fraction, exponent⟩, cs)

/-! ### Strings -/

/-- A piece of a string: a character, or an escaped unit of UTF-16. -/
inductive Letter where
  /-- A character, written as it is or with a short escape. -/
  | plain (c : Char) : Letter
  /-- An escape with four hexadecimal digits. -/
  | unit (n : Nat) : Letter
deriving DecidableEq, Repr

/-- The value of a hexadecimal digit. -/
def hexValue? (c : Char) : Option Nat :=
  if c.isDigit then some (c.toNat - '0'.toNat)
  else if 'a' ≤ c ∧ c ≤ 'f' then some (c.toNat - 'a'.toNat + 10)
  else if 'A' ≤ c ∧ c ≤ 'F' then some (c.toNat - 'A'.toNat + 10)
  else none

/-- The number written with four hexadecimal digits. -/
def hexUnit? (w x y z : Char) : Option Nat := do
  let w ← hexValue? w
  let x ← hexValue? x
  let y ← hexValue? y
  let z ← hexValue? z
  return ((w * 16 + x) * 16 + y) * 16 + z

/-- The character that a short escape stands for. -/
def shortEscape? (c : Char) : Option Char :=
  match c with
  | '"' => some '"'
  | '\\' => some '\\'
  | '/' => some '/'
  | 'b' => some '\x08'
  | 'f' => some '\x0c'
  | 'n' => some '\n'
  | 'r' => some '\r'
  | 't' => some '\t'
  | _ => none

/-- The letters up to the closing quote, and what follows it. A control character may not stand
in a string. -/
def scanString : List Char → Option (List Letter × List Char)
  | [] => none
  | c :: cs =>
    if c = '"' then some ([], cs)
    else if c = '\\' then
      match cs with
      | 'u' :: w :: x :: y :: z :: rest =>
        match hexUnit? w x y z with
        | none => none
        | some n => (scanString rest).map fun (ls, rest) => (.unit n :: ls, rest)
      | e :: rest =>
        match shortEscape? e with
        | none => none
        | some c => (scanString rest).map fun (ls, rest) => (.plain c :: ls, rest)
      | [] => none
    else if c.toNat < 0x20 then none
    else (scanString cs).map fun (ls, rest) => (.plain c :: ls, rest)

/-! ### Tokens -/

/-- A token of JSON text. -/
inductive Token where
  /-- The bracket that opens an array. -/
  | openArray : Token
  /-- The bracket that closes an array. -/
  | closeArray : Token
  /-- The brace that opens an object. -/
  | openObject : Token
  /-- The brace that closes an object. -/
  | closeObject : Token
  /-- The separator of elements and members. -/
  | comma : Token
  /-- The separator of a key and its value. -/
  | colon : Token
  /-- The word `null`. -/
  | null : Token
  /-- One of the words `true` and `false`. -/
  | bool (b : Bool) : Token
  /-- A number. -/
  | number (n : NumberText) : Token
  /-- A string. -/
  | string (ls : List Letter) : Token
deriving DecidableEq, Repr

/-- The characters that may stand between tokens. -/
def isSpace (c : Char) : Bool := c = ' ' || c = '\t' || c = '\n' || c = '\r'

/-- The token that begins with the character `c`, and what follows it. -/
def scan (c : Char) (cs : List Char) : Option (Token × List Char) :=
  match c, cs with
  | '[', cs => some (.openArray, cs)
  | ']', cs => some (.closeArray, cs)
  | '\x7b', cs => some (.openObject, cs)
  | '\x7d', cs => some (.closeObject, cs)
  | ',', cs => some (.comma, cs)
  | ':', cs => some (.colon, cs)
  | 'n', 'u' :: 'l' :: 'l' :: cs => some (.null, cs)
  | 't', 'r' :: 'u' :: 'e' :: cs => some (.bool true, cs)
  | 'f', 'a' :: 'l' :: 's' :: 'e' :: cs => some (.bool false, cs)
  | '"', cs => (scanString cs).map fun (ls, rest) => (.string ls, rest)
  | '-', cs => (scanUnsigned true cs).map fun (n, rest) => (.number n, rest)
  | c, cs => (scanUnsigned false (c :: cs)).map fun (n, rest) => (.number n, rest)

/-! ### A token is never empty -/

theorem length_dropWhile_le (p : Char → Bool) (cs : List Char) :
    (cs.dropWhile p).length ≤ cs.length :=
  (List.dropWhile_sublist p).length_le

theorem length_of_scanDigits {cs digits rest : List Char}
    (h : scanDigits cs = some (digits, rest)) : rest.length < cs.length := by
  cases cs with
  | nil => simp [scanDigits] at h
  | cons c cs =>
    rw [scanDigits] at h
    split at h
    · simp only [Option.some.injEq, Prod.mk.injEq] at h
      rw [← h.2]
      exact Nat.lt_succ_of_le (length_dropWhile_le _ _)
    · simp at h

theorem length_of_scanWhole {cs digits rest : List Char}
    (h : scanWhole cs = some (digits, rest)) : rest.length < cs.length := by
  unfold scanWhole at h
  split at h
  · simp only [Option.some.injEq, Prod.mk.injEq] at h
    simp [← h.2]
  · exact length_of_scanDigits h

theorem length_of_scanFraction {cs rest : List Char} {digits : Option (List Char)}
    (h : scanFraction cs = some (digits, rest)) : rest.length ≤ cs.length := by
  unfold scanFraction at h
  split at h
  · obtain ⟨⟨ds, r⟩, hs, he⟩ := Option.map_eq_some_iff.1 h
    simp only [Prod.mk.injEq] at he
    have := length_of_scanDigits hs
    simp only [List.length_cons, ← he.2]
    omega
  · simp only [Option.some.injEq, Prod.mk.injEq] at h
    exact h.2 ▸ Nat.le_refl _

theorem length_scanSign (cs : List Char) : (scanSign cs).2.length ≤ cs.length := by
  unfold scanSign
  split <;> simp

theorem length_of_scanExponent {cs rest : List Char} {e : Option (Bool × List Char)}
    (h : scanExponent cs = some (e, rest)) : rest.length ≤ cs.length := by
  cases cs with
  | nil =>
    simp only [scanExponent, Option.some.injEq, Prod.mk.injEq] at h
    simp [← h.2]
  | cons c cs =>
    rw [scanExponent] at h
    split at h
    · obtain ⟨⟨ds, r⟩, hs, he⟩ := Option.map_eq_some_iff.1 h
      simp only [Prod.mk.injEq] at he
      have h1 := length_of_scanDigits hs
      have h2 := length_scanSign cs
      simp only [List.length_cons, ← he.2]
      omega
    · simp only [Option.some.injEq, Prod.mk.injEq] at h
      exact h.2 ▸ Nat.le_refl _

theorem length_of_scanUnsigned {negative : Bool} {cs rest : List Char} {n : NumberText}
    (h : scanUnsigned negative cs = some (n, rest)) : rest.length < cs.length := by
  unfold scanUnsigned at h
  split at h
  · simp at h
  · next hw =>
    split at h
    · simp at h
    · next hf =>
      split at h
      · simp at h
      · next he =>
        simp only [Option.some.injEq, Prod.mk.injEq] at h
        have h1 := length_of_scanWhole hw
        have h2 := length_of_scanFraction hf
        have h3 := length_of_scanExponent he
        rw [← h.2]
        omega

theorem length_of_scanString {cs rest : List Char} {ls : List Letter}
    (h : scanString cs = some (ls, rest)) : rest.length < cs.length := by
  fun_induction scanString cs generalizing ls rest with
  | case1 => simp at h
  | case2 cs => simp_all
  | case3 => simp at h
  | case4 w x y z cs n hn _ ih =>
    obtain ⟨⟨ls', rest'⟩, hs, he⟩ := Option.map_eq_some_iff.1 h
    simp only [Prod.mk.injEq] at he
    have := ih hs
    simp only [List.length_cons, ← he.2]
    omega
  | case5 => simp at h
  | case6 e cs _ c hc _ ih =>
    obtain ⟨⟨ls', rest'⟩, hs, he⟩ := Option.map_eq_some_iff.1 h
    simp only [Prod.mk.injEq] at he
    have := ih hs
    simp only [List.length_cons, ← he.2]
    omega
  | case7 => simp at h
  | case8 => simp at h
  | case9 c cs _ _ _ ih =>
    obtain ⟨⟨ls', rest'⟩, hs, he⟩ := Option.map_eq_some_iff.1 h
    simp only [Prod.mk.injEq] at he
    have := ih hs
    simp only [List.length_cons, ← he.2]
    omega

/-- **A token takes at least its first character off the text.** -/
theorem length_of_scan {c : Char} {cs rest : List Char} {t : Token}
    (h : scan c cs = some (t, rest)) : rest.length < (c :: cs).length := by
  unfold scan at h
  split at h
  case h_10 =>
    obtain ⟨⟨ls, r⟩, hs, he⟩ := Option.map_eq_some_iff.1 h
    simp only [Prod.mk.injEq] at he
    have := length_of_scanString hs
    simp only [List.length_cons, ← he.2]
    omega
  case h_11 =>
    obtain ⟨⟨n, r⟩, hs, he⟩ := Option.map_eq_some_iff.1 h
    simp only [Prod.mk.injEq] at he
    have := length_of_scanUnsigned hs
    simp only [List.length_cons, ← he.2]
    omega
  case h_12 =>
    obtain ⟨⟨n, r⟩, hs, he⟩ := Option.map_eq_some_iff.1 h
    simp only [Prod.mk.injEq] at he
    have := length_of_scanUnsigned hs
    simpa [← he.2] using this
  all_goals
    simp only [Option.some.injEq, Prod.mk.injEq] at h
    simp only [List.length_cons, ← h.2]
    omega

/-- The tokens of a text, if it consists of tokens and the space between them. -/
def tokens (cs : List Char) : Option (List Token) :=
  match cs with
  | [] => some []
  | c :: cs =>
    if isSpace c then tokens cs
    else
      match h : scan c cs with
      | none => none
      | some (t, rest) =>
        have := length_of_scan h
        (tokens rest).map (t :: ·)
termination_by cs.length
decreasing_by
  all_goals simp only [List.length_cons] at *
  all_goals omega

end Json

end DottedQuery
