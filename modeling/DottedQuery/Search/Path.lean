import DottedQuery.Query.Operator
import DottedQuery.Messages
import DottedQuery.SearchError
import DottedQuery.Text.Name
import DottedQuery.Text.Segments

/-!
# Paths and orders

A path is a text of segments with points between them: relations to follow, one after another,
and at the end a field. Filters and orders write their fields as paths.

An order is asked for by two parameters, a path and a direction. It is left out unless both are
there and not blank; `DottedQuery.OrderPath.ofParams` reports a path with a segment that is no
plain name and a direction that is neither `asc` nor `desc`, both of them if need be.
-/

namespace DottedQuery

/-- Relations to follow, and the field at the end. -/
structure FieldPath where
  /-- The relations, in order. -/
  relations : List String
  /-- The field. -/
  field : String
deriving DecidableEq, Repr

namespace FieldPath

/-- The path written in a text: the part after the last point is the field. -/
def ofText (s : String) : FieldPath :=
  let segments := Text.split '.' s
  ⟨segments.dropLast, segments.getLastD ""⟩

/-- The segments of a path, the field last. -/
def segments (p : FieldPath) : List String := p.relations ++ [p.field]

/-- Whether every segment is a plain name. -/
def isPlain (p : FieldPath) : Bool := p.segments.all Text.isPlain

/-- Whether the path follows a relation. -/
def isRelational (p : FieldPath) : Bool := !p.relations.isEmpty

theorem segments_ofText (s : String) : (ofText s).segments = Text.split '.' s := by
  have h : Text.split '.' s ≠ [] := by simp [Text.split, Text.cut_ne_nil]
  simp only [ofText, segments, List.getLastD_eq_getLast?, List.getLast?_eq_some_getLast h,
    Option.getD_some]
  exact List.dropLast_concat_getLast h

end FieldPath

/-- What a query is ordered by. -/
structure OrderPath where
  /-- The path to the field. -/
  path : FieldPath
  /-- The direction. -/
  direction : Direction
deriving DecidableEq, Repr

namespace OrderPath

/-- The order by the path in a text. -/
def ofText (path : String) (direction : Direction) : OrderPath := ⟨.ofText path, direction⟩

/-- What is said about a path with a segment that is no plain name. -/
def badPath (path : String) : String := "Order path `" ++ path ++ "` is not a valid path"

/-- What is said about a direction that is none. -/
def badDirection (direction : String) : String :=
  "Order direction `" ++ direction ++ "` must be one of: asc, desc"

/-- The order by a path in a direction, neither of them blank. -/
def ofTexts (path direction : String) : Except SearchError OrderPath :=
  let messages :=
    if (FieldPath.ofText path).isPlain then Messages.empty
    else Messages.empty.add "order.path" (badPath path)
  match Direction.parse? direction with
  | none => .error (.invalid (messages.add "order.direction" (badDirection direction)))
  | some d => if messages.isEmpty then .ok (ofText path d) else .error (.invalid messages)

/-- A parameter without the blanks around it, if there is anything else to it. -/
def param? (s : Option String) : Option String :=
  (s.map Text.trim).filter fun t => t ≠ ""

/-- **The order that two parameters ask for**, if they ask for one. -/
def ofParams (path direction : Option String) : Except SearchError (Option OrderPath) :=
  match param? path, param? direction with
  | some path, some direction => (ofTexts path direction).map some
  | _, _ => .ok none

end OrderPath

end DottedQuery
