import DottedQuery.Decimal.Layout
import DottedQuery.Json.Document

/-!
# Writing JSON

A document is written without space, its members in order. In strings only the quote, the
backslash and the control characters are escaped. A float has the fewest digits that read back,
of two equally near decimals the even one; it is written out in full when its first digit stands
for a power of ten from `-5` to `15`, and then keeps a `.0` when it is whole. What is no finite
number is written as `null`.
-/

namespace DottedQuery

namespace Json

/-- What JSON decides about the text of a float. -/
def numberLayout : Decimal.Layout where
  tie := .even
  fullRange := some (-5, 15)
  wholeMark := ".0"
  infinity := "null"
  negativeInfinity := "null"
  notANumber := "null"

/-- The small hexadecimal digit of a number below sixteen. -/
def hexDigit (n : Nat) : Char := Nat.digitChar n

/-- A character as it stands in a string. -/
def escape (c : Char) : List Char :=
  match c with
  | '"' => ['\\', '"']
  | '\\' => ['\\', '\\']
  | '\x08' => ['\\', 'b']
  | '\t' => ['\\', 't']
  | '\n' => ['\\', 'n']
  | '\x0c' => ['\\', 'f']
  | '\r' => ['\\', 'r']
  | c =>
    if c.toNat < 0x20 then ['\\', 'u', '0', '0', hexDigit (c.toNat / 16), hexDigit (c.toNat % 16)]
    else [c]

/-- A text between its quotes. -/
def writeString (s : String) : String :=
  String.ofList ('"' :: (s.toList.flatMap escape ++ ['"']))

namespace Document

mutual

/-- **The text of a document.** -/
def write : Document → String
  | null => "null"
  | bool b => if b then "true" else "false"
  | int n => Decimal.intText n.toInt
  | float x => numberLayout.render x
  | string s => writeString s
  | array xs => "[" ++ ",".intercalate (writeElements xs) ++ "]"
  | object ms => "\x7b" ++ ",".intercalate (writeMembers ms) ++ "\x7d"

/-- The texts of the elements of an array. -/
def writeElements : List Document → List String
  | [] => []
  | x :: xs => x.write :: writeElements xs

/-- The texts of the members of an object. -/
def writeMembers : List (String × Document) → List String
  | [] => []
  | (k, x) :: ms => (writeString k ++ ":" ++ x.write) :: writeMembers ms

end

end Document

end Json

end DottedQuery
