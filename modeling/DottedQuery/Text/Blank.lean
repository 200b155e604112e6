/-!
# Blank characters and trimming

A key, an operator or a direction is compared without the blanks around it. *Blank* is the
`White_Space` property of Unicode: twenty-five characters, given here as ten ranges
(`DottedQuery.Text.blankRanges`).

`DottedQuery.Text.trim` removes the blanks from both ends and touches nothing in between.
-/

namespace DottedQuery

namespace Text

/-- The first and the last code point of each run of characters with the property `White_Space`.
-/
def blankRanges : List (Nat × Nat) :=
  [(0x9, 0xD), (0x20, 0x20), (0x85, 0x85), (0xA0, 0xA0), (0x1680, 0x1680), (0x2000, 0x200A),
    (0x2028, 0x2029), (0x202F, 0x202F), (0x205F, 0x205F), (0x3000, 0x3000)]

/-- The blank characters. -/
def isBlank (c : Char) : Bool :=
  blankRanges.any fun r => r.1 ≤ c.toNat && c.toNat ≤ r.2

/-- The characters from the first one that is not blank to the last one that is not. -/
def trimChars (cs : List Char) : List Char :=
  ((cs.dropWhile isBlank).reverse.dropWhile isBlank).reverse

/-- The text without the blanks at its two ends. -/
def trim (s : String) : String :=
  String.ofList (trimChars s.toList)

@[simp] theorem toList_trim (s : String) : (trim s).toList = trimChars s.toList := by
  simp [trim]

/-- The text with its ASCII capitals made small; no other letter is changed. -/
def lower (s : String) : String :=
  String.ofList (s.toList.map Char.toLower)

@[simp] theorem toList_lower (s : String) : (lower s).toList = s.toList.map Char.toLower := by
  simp [lower]

end Text

end DottedQuery
