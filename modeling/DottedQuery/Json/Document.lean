import DottedQuery.Json.Number
import DottedQuery.Json.Source

/-!
# JSON values

A `DottedQuery.Json.Document` is a JSON value whose strings are texts and whose numbers are
numbers. `DottedQuery.Json.Source.document?` makes one of the shape of a text, and refuses

* a string with an escaped half of a surrogate pair that stands alone,
* a number too large for a float,
* a nesting of arrays and objects deeper than the room that is left.

The room is counted from the outside: a whole text has room for `DottedQuery.Json.maxDepth`
arrays and objects around one another, and each one takes a place of it from what it holds.
-/

namespace DottedQuery

namespace Json

open Decimal (Binary64)

/-- A JSON value. -/
inductive Document where
  /-- The word `null`. -/
  | null : Document
  /-- A truth value. -/
  | bool (b : Bool) : Document
  /-- An integer. -/
  | int (n : Int64) : Document
  /-- A float. -/
  | float (x : Binary64) : Document
  /-- A text. -/
  | string (s : String) : Document
  /-- A list of values. -/
  | array (xs : List Document) : Document
  /-- Keys and values in order. -/
  | object (ms : List (String × Document)) : Document

/-- How many arrays and objects may stand around one another. -/
def maxDepth : Nat := 127

/-! ### Strings -/

/-- The units of UTF-16 that begin a pair. -/
def isHighSurrogate (n : Nat) : Bool := 0xD800 ≤ n && n < 0xDC00

/-- The units of UTF-16 that end a pair. -/
def isLowSurrogate (n : Nat) : Bool := 0xDC00 ≤ n && n < 0xE000

/-- The characters of a string. -/
def chars? : List Letter → Option (List Char)
  | [] => some []
  | .plain c :: ls => (chars? ls).map (c :: ·)
  | .unit n :: ls =>
    if isHighSurrogate n then
      match ls with
      | .unit m :: ls =>
        if isLowSurrogate m then
          (chars? ls).map (Char.ofNat (0x10000 + (n - 0xD800) * 0x400 + (m - 0xDC00)) :: ·)
        else none
      | _ => none
    else if isLowSurrogate n then none
    else (chars? ls).map (Char.ofNat n :: ·)

/-- **The text of a string**, if every half of a surrogate pair has its other half. -/
def text? (ls : List Letter) : Option String := (chars? ls).map String.ofList

/-! ### Documents -/

/-- The document of a number. -/
def Number.document : Number → Document
  | .int n => .int n
  | .float x => .float x

namespace Source

mutual

/-- **The value a shape stands for**, where `room` arrays and objects may stand around one
another. -/
def document? (room : Nat) : Source → Option Document
  | null => some .null
  | bool b => some (.bool b)
  | number t => (t.number?).map Number.document
  | string ls => (text? ls).map .string
  | array xs =>
    match room with
    | 0 => none
    | room + 1 => (elements? room xs).map .array
  | object ms =>
    match room with
    | 0 => none
    | room + 1 => (members? room ms).map .object

/-- The values of a list of shapes. -/
def elements? (room : Nat) : List Source → Option (List Document)
  | [] => some []
  | x :: xs =>
    match x.document? room with
    | none => none
    | some d => (elements? room xs).map (d :: ·)

/-- The keys and values of the members of an object. -/
def members? (room : Nat) : List (List Letter × Source) → Option (List (String × Document))
  | [] => some []
  | (k, x) :: ms =>
    match text? k with
    | none => none
    | some k =>
      match x.document? room with
      | none => none
      | some d => (members? room ms).map ((k, d) :: ·)

end

end Source

end Json

end DottedQuery
