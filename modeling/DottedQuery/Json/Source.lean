import DottedQuery.Json.Token

/-!
# Reading JSON text

A `DottedQuery.Json.Source` is the shape of a JSON text: its arrays, objects and leaves as they
are written, before anybody has asked what a string or a number in it means. Reading is one pass
over the tokens with the unfinished arrays and objects held in a list (`DottedQuery.Json.State`,
`DottedQuery.Json.State.step`), so it ends with the tokens, and the depth of the text is no
matter to it. `DottedQuery.Json.Source.read?` is the reader.

What a text has to satisfy beyond its form depends on who reads it: a part that nobody looks at
may hold a number too large for any format, or be nested as deep as it likes.
-/

namespace DottedQuery

namespace Json

/-- The shape of a JSON text. -/
inductive Source where
  /-- The word `null`. -/
  | null : Source
  /-- One of the words `true` and `false`. -/
  | bool (b : Bool) : Source
  /-- A number, as it is written. -/
  | number (n : NumberText) : Source
  /-- A string, as it is written. -/
  | string (ls : List Letter) : Source
  /-- An array. -/
  | array (xs : List Source) : Source
  /-- An object: its keys and values in the order of the text, repeated keys included. -/
  | object (ms : List (List Letter × Source)) : Source

/-! ### The reader -/

/-- An array or an object that is not finished; what it has so far is held backwards. -/
inductive Frame where
  /-- An array and its elements. -/
  | array (done : List Source) : Frame
  /-- An object, its members, and the key whose value is being read. -/
  | object (done : List (List Letter × Source)) (key : List Letter) : Frame

/-- What the reader waits for, inside the unfinished arrays and objects of `stack`. -/
inductive State where
  /-- A value. -/
  | value (stack : List Frame) : State
  /-- The first element of an array, or its end. -/
  | firstElement (stack : List Frame) : State
  /-- The first key of an object, or its end. -/
  | firstKey (stack : List Frame) : State
  /-- A further key of an object. -/
  | key (done : List (List Letter × Source)) (stack : List Frame) : State
  /-- The colon after a key. -/
  | colon (done : List (List Letter × Source)) (key : List Letter) (stack : List Frame) : State
  /-- What may follow a value that is complete. -/
  | complete (v : Source) (stack : List Frame) : State

namespace State

/-- The token at the beginning of a value. -/
def opening (stack : List Frame) : Token → Option State
  | .null => some (complete .null stack)
  | .bool b => some (complete (.bool b) stack)
  | .number n => some (complete (.number n) stack)
  | .string ls => some (complete (.string ls) stack)
  | .openArray => some (firstElement stack)
  | .openObject => some (firstKey stack)
  | _ => none

/-- The token after a value. -/
def following (v : Source) : List Frame → Token → Option State
  | .array done :: stack, .comma => some (value (.array (v :: done) :: stack))
  | .array done :: stack, .closeArray => some (complete (.array (v :: done).reverse) stack)
  | .object done k :: stack, .comma => some (key ((k, v) :: done) stack)
  | .object done k :: stack, .closeObject =>
    some (complete (.object ((k, v) :: done).reverse) stack)
  | _, _ => none

/-- **One token read.** -/
def step : State → Token → Option State
  | value stack, t => opening stack t
  | firstElement stack, t =>
    match t with
    | .closeArray => some (complete (.array []) stack)
    | t => opening (.array [] :: stack) t
  | firstKey stack, t =>
    match t with
    | .closeObject => some (complete (.object []) stack)
    | .string k => some (colon [] k stack)
    | _ => none
  | key done stack, t =>
    match t with
    | .string k => some (colon done k stack)
    | _ => none
  | colon done k stack, t =>
    match t with
    | .colon => some (value (.object done k :: stack))
    | _ => none
  | complete v stack, t => following v stack t

/-- The value that has been read, when nothing is unfinished. -/
def result? : State → Option Source
  | complete v [] => some v
  | _ => none

end State

namespace Source

/-- The value that the tokens spell. -/
def ofTokens? (ts : List Token) : Option Source :=
  (ts.foldlM State.step (State.value [])).bind State.result?

/-- **Reading**: the shape of a text that is one JSON value with space around it. -/
def read? (s : String) : Option Source :=
  (tokens s.toList).bind ofTokens?

end Source

end Json

end DottedQuery
