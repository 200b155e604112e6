import DottedQuery.Text.Blank

/-!
# The words of a condition

The operators a criterion may use, the words that combine conditions, and the directions of an
order. Operators and directions are read without regard to blanks around them and to ASCII case.
-/

namespace DottedQuery

open Text (lower trim)

/-- An operator between a column and a value, or between two columns. -/
inductive Operator where
  /-- Equal. -/
  | eq : Operator
  /-- Not equal. -/
  | ne : Operator
  /-- Less. -/
  | lt : Operator
  /-- Less or equal. -/
  | le : Operator
  /-- Greater. -/
  | gt : Operator
  /-- Greater or equal. -/
  | ge : Operator
  /-- Matches a pattern. -/
  | like : Operator
  /-- Does not match a pattern. -/
  | notLike : Operator
  /-- Matches a pattern whatever the case of letters. -/
  | ilike : Operator
  /-- Is a member of a set. -/
  | isIn : Operator
  /-- Is not a member of a set. -/
  | notIn : Operator
deriving DecidableEq, Repr

namespace Operator

/-- All operators. -/
def all : List Operator := [eq, ne, lt, le, gt, ge, like, notLike, ilike, isIn, notIn]

/-- The operator in a statement. -/
def sql : Operator → String
  | eq => "="
  | ne => "!="
  | lt => "<"
  | le => "<="
  | gt => ">"
  | ge => ">="
  | like => "like"
  | notLike => "not like"
  | ilike => "ilike"
  | isIn => "in"
  | notIn => "not in"

/-- The words a request may use for the operator. -/
def spellings : Operator → List String
  | ne => ["!=", "<>"]
  | o => [o.sql]

/-- The operator a word stands for. -/
def parse? (token : String) : Option Operator :=
  all.find? fun o => o.spellings.contains (lower (trim token))

/-- Whether the operator compares with a set. -/
def isSet : Operator → Bool
  | isIn | notIn => true
  | _ => false

/-- What is said about a word that stands for no operator. -/
def unsupported (token : String) : String := "unsupported operator '" ++ token ++ "'"

end Operator

/-- How a condition is combined with those before it. -/
inductive Combinator where
  /-- Both hold. -/
  | and : Combinator
  /-- One of them holds. -/
  | or : Combinator
deriving DecidableEq, Repr

namespace Combinator

/-- `or` if the flag is set. -/
def ofOr (flag : Bool) : Combinator := if flag then or else and

/-- The combinator in a statement. -/
def sql : Combinator → String
  | and => "and"
  | or => "or"

end Combinator

/-- The direction of an order. -/
inductive Direction where
  /-- From small to large. -/
  | asc : Direction
  /-- From large to small. -/
  | desc : Direction
deriving DecidableEq, Repr

namespace Direction

/-- The direction in a statement. -/
def sql : Direction → String
  | asc => "asc"
  | desc => "desc"

/-- The direction that is written exactly so. -/
def ofSpelling? (s : String) : Option Direction := [asc, desc].find? fun d => d.sql = s

/-- The direction a word stands for. -/
def parse? (token : String) : Option Direction := ofSpelling? (lower (trim token))

end Direction

end DottedQuery
