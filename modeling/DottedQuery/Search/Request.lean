import DottedQuery.Json.Values
import DottedQuery.Search.Path

/-!
# Search requests

A request is a list of items. An item names what is searched by a key and lists criteria; a
criterion has a field, an operator, a value, and a flag that says whether it may hold instead of
those before it. Any of these may be missing, for what is missing is reported together with
everything else that is wrong (`DottedQuery.Rules`) and does not keep a request from being read.

A criterion is written as an object with the keys `field`, `where`, `value` and `or`, or as an
array of the first three, with any fourth element in the place of the flag.
-/

namespace DottedQuery

open Json (Decoder Document)

/-- A criterion of a search. -/
structure Criterion where
  /-- The path to the field. -/
  field : Option String
  /-- The word for the operator. -/
  op : Option String
  /-- The value. -/
  value : Option Value
  /-- Whether the criterion may hold instead of those before it. -/
  or : Bool

namespace Criterion

/-- The operator that the word stands for. -/
def operator? (c : Criterion) : Option Operator := c.op.bind Operator.parse?

/-- The path to the field. -/
def path? (c : Criterion) : Option FieldPath := c.field.map FieldPath.ofText

/-! ### Criteria as JSON -/

/-- A value that is there and is not `null`. -/
def present (v : Option Value) : Option Value := v.filter fun v => !v.isNull

/-- The criterion written as an array. -/
def ofElements (vs : List Value) : Criterion where
  field := vs[0]?.bind Value.text?
  op := vs[1]?.bind Value.text?
  value := present vs[2]?
  or := 3 < vs.length

/-- The keys of a criterion written as an object. -/
def keys : List String := ["field", "where", "value", "or"]

/-- A member that is a text, or `null`, or not there. -/
def textMember? (ms : List (String × Document)) (key : String) : Option (Option String) :=
  match Dict.lookup key ms with
  | none => some none
  | some .null => some none
  | some (.string s) => some (some s)
  | some _ => none

/-- The criterion written as an object. Keys that are no keys of a criterion are passed over. -/
def ofMembers? (ms : List (String × Document)) : Option Criterion := do
  let known := ms.filter fun m => keys.contains m.1
  if !Decoder.distinct (known.map Prod.fst) then none
  let field ← textMember? known "field"
  let op ← textMember? known "where"
  let value ←
    match Dict.lookup "value" known with
    | none => some none
    | some d => (Value.ofDocument? d).map some
  let or ←
    match Dict.lookup "or" known with
    | none => some false
    | some (.bool b) => some b
    | some _ => none
  return ⟨field, op, present value, or⟩

/-- The criterion that a document is. -/
def ofDocument? : Document → Option Criterion
  | .array xs => (Value.ofDocuments? xs).map ofElements
  | .object ms => ofMembers? ms
  | _ => none

/-- The decoder of criteria. -/
def decoder : Decoder Criterion := .whole ofDocument?

end Criterion

/-- What is searched, and the criteria. -/
structure SearchItem where
  /-- The search key of the entity. -/
  entity : Option String
  /-- The criteria, in order. -/
  criteria : Option (List Criterion)

namespace SearchItem

/-- The criteria; none when none are given. -/
def criteriaList (i : SearchItem) : List Criterion := i.criteria.getD []

/-- The search key of the entity without the blanks around it. -/
def key? (i : SearchItem) : Option String := i.entity.map Text.trim

/-- The decoder of items. -/
def decoder : Decoder SearchItem := fun room s => do
  let f ← Decoder.fields ["entity", "criteria"] room s
  return {
    entity := ← f.withDefault "entity" none (.optional .text)
    criteria := ← f.withDefault "criteria" none (.optional (.list Criterion.decoder)) }

end SearchItem

/-- A search request. -/
structure SearchRequest where
  /-- The items, in order. -/
  items : List SearchItem

namespace SearchRequest

/-- The decoder of requests. -/
def decoder : Decoder SearchRequest := fun room s =>
  (Decoder.list SearchItem.decoder room s).map SearchRequest.mk

/-- **The request that a text holds.** -/
def ofText (s : String) : Except SearchError SearchRequest :=
  match Decoder.decode? decoder s with
  | none => .error .undecodable
  | some r => .ok r

end SearchRequest

end DottedQuery
