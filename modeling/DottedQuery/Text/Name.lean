import DottedQuery.Text.Quoted

/-!
# Names in a statement

A table, an alias or a column is written as it is when it is a *plain* name – a letter or `_`,
then letters, digits and `_`, all of them ASCII (`DottedQuery.Text.isPlain`) – and between
double quotes otherwise (`DottedQuery.Text.quoteName`). Either way the name cannot end early and
turn into something else.
-/

namespace DottedQuery

namespace Text

/-- The characters a plain name may begin with. -/
def isNameStart (c : Char) : Bool := c.isAlpha || c = '_'

/-- The characters a plain name may go on with. -/
def isNamePart (c : Char) : Bool := c.isAlphanum || c = '_'

/-- Plain names, as lists of characters. -/
def isPlainChars : List Char → Bool
  | [] => false
  | c :: cs => isNameStart c && cs.all isNamePart

/-- Plain names: `[A-Za-z_][A-Za-z0-9_]*`. -/
def isPlain (s : String) : Bool := isPlainChars s.toList

/-- A name as it stands in a statement. -/
def quoteName (s : String) : String :=
  if isPlain s then s else quoted '"' s

theorem quoteName_of_isPlain {s : String} (h : isPlain s = true) : quoteName s = s := by
  simp [quoteName, h]

theorem quoteName_of_not_isPlain {s : String} (h : isPlain s = false) :
    quoteName s = quoted '"' s := by
  simp [quoteName, h]

end Text

end DottedQuery
