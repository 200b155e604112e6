import DottedQuery.Decimal.Layout
import DottedQuery.Text.Quoted
import DottedQuery.Text.Segments

/-!
# The values of criteria

A criterion compares a column with a `DottedQuery.Value`: one of the scalars of JSON, or a list
of values. Lists are meant for the set operators, which take the members of a value
(`DottedQuery.Value.members`) – those of a list, the parts of a text between commas, and the
value itself otherwise.

`DottedQuery.Value.literal` is the value as it would stand in a statement. Statements that are
executed carry values as bindings instead; literals are for logs.
-/

namespace DottedQuery

open Decimal (Binary64)

/-- What a criterion compares a column with. -/
inductive Value where
  /-- No value. -/
  | null : Value
  /-- A truth value. -/
  | bool (b : Bool) : Value
  /-- A signed integer of 64 bits. -/
  | int (n : Int64) : Value
  /-- A binary floating-point number of 64 bits. -/
  | float (x : Binary64) : Value
  /-- A text. -/
  | string (s : String) : Value
  /-- A list of values. -/
  | array (vs : List Value) : Value

namespace Value

/-- Whether the value is `null`. -/
def isNull : Value → Bool
  | null => true
  | _ => false

/-- Whether the value is a list. -/
def isArray : Value → Bool
  | array _ => true
  | _ => false

/-- The text, of a value that is one. -/
def text? : Value → Option String
  | string s => some s
  | _ => none

/-- The integer, of a value that is one. -/
def int? : Value → Option Int64
  | int n => some n
  | _ => none

/-- The members a set operator compares with. -/
def members : Value → List Value
  | array vs => vs
  | string s => (Text.split ',' s).map string
  | v => [v]

mutual

/-- Equality of values, with floats compared as numbers. -/
def equal : Value → Value → Bool
  | null, null => true
  | bool a, bool b => a = b
  | int a, int b => a = b
  | float a, float b => a.equal b
  | string a, string b => a = b
  | array a, array b => equalLists a b
  | _, _ => false

/-- Equality of lists of values. -/
def equalLists : List Value → List Value → Bool
  | [], [] => true
  | a :: as, b :: bs => a.equal b && equalLists as bs
  | _, _ => false

end

/-- Numbers in literals have the fewest digits that read back and are written out in full; of
two equally near decimals the larger magnitude is taken, and a whole number has no point. -/
def numberLayout : Decimal.Layout where
  tie := .up
  fullRange := none
  wholeMark := ""
  infinity := "inf"
  negativeInfinity := "-inf"
  notANumber := "NaN"

mutual

/-- The value as it stands in a statement. -/
def literal : Value → String
  | null => "null"
  | bool b => if b then "1" else "0"
  | int n => Decimal.intText n.toInt
  | float x => numberLayout.render x
  | string s => Text.quoted '\'' s
  | array vs => "(" ++ ", ".intercalate (literals vs) ++ ")"

/-- The values of a list as they stand in a statement. -/
def literals : List Value → List String
  | [] => []
  | v :: vs => v.literal :: literals vs

end

/-- The value for a reader: a text as it is, anything else as its literal. -/
def display : Value → String
  | string s => s
  | v => v.literal

end Value

end DottedQuery
