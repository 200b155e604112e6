import DottedQuery.Json.Decoder
import DottedQuery.Json.Writer
import DottedQuery.Value

/-!
# Values as JSON

A value of a criterion is JSON without objects. `DottedQuery.Value.document` writes it and
`DottedQuery.Value.ofDocument?` reads it.
-/

namespace DottedQuery

open Json (Decoder Document)

namespace Value

mutual

/-- The value as JSON. -/
def document : Value → Document
  | null => .null
  | bool b => .bool b
  | int n => .int n
  | float x => .float x
  | string s => .string s
  | array vs => .array (documents vs)

/-- The values of a list as JSON. -/
def documents : List Value → List Document
  | [] => []
  | v :: vs => v.document :: documents vs

end

/-- The text of the value as JSON. -/
def json (v : Value) : String := v.document.write

mutual

/-- The value that a document is, unless it holds an object. -/
def ofDocument? : Document → Option Value
  | .null => some null
  | .bool b => some (bool b)
  | .int n => some (int n)
  | .float x => some (float x)
  | .string s => some (string s)
  | .array xs => (ofDocuments? xs).map array
  | .object _ => none

/-- The values that the documents of a list are. -/
def ofDocuments? : List Document → Option (List Value)
  | [] => some []
  | x :: xs =>
    match ofDocument? x with
    | none => none
    | some v => (ofDocuments? xs).map (v :: ·)

end

/-- The decoder of values. -/
def decoder : Decoder Value := .whole ofDocument?

end Value

end DottedQuery
