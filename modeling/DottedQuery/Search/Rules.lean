import DottedQuery.Search.Request

/-!
# The rules for requests

Before a request is compiled, its shape is checked: every item names a search key, and every
criterion has a field whose path consists of plain names, an operator that is known, and a
value. `DottedQuery.Rules.validate` collects everything that is wrong, each thing under its
place in the request.
-/

namespace DottedQuery

open Decimal (natText)

/-- The rules for requests: the search keys that an item may name. -/
structure Rules where
  /-- The search keys. -/
  keys : List String

namespace Rules

/-- Something that is wrong: its place in the request, and what is said about it. -/
abbrev Complaint := String × String

/-- The place of the entity of an item. -/
def entityPlace (item : Nat) : String := natText item ++ ".entity"

/-- The place of a part of a criterion. -/
def criterionPlace (item criterion : Nat) (part : String) : String :=
  natText item ++ ".criteria." ++ natText criterion ++ "." ++ part

/-- What is said about a part of a criterion that is missing. -/
def missing (item : Nat) (part : String) : String :=
  "Criteria List at #" ++ natText item ++ " is missing a requirement: " ++ part

/-- What is said about a path with a segment that is no plain name. -/
def badPath (item : Nat) : String :=
  "Criteria List at #" ++ natText item ++ " has an invalid field path"

/-- What is said about a word that stands for no operator. -/
def badOperator (item : Nat) (op : String) : String :=
  "Criteria List at #" ++ natText item ++ " has an unsupported operator: " ++ op

/-- What is wrong with the key of an item. -/
def entityComplaint? (r : Rules) (item : Nat) (key : Option String) : Option String :=
  match key with
  | none => some ("Entity at #" ++ natText item ++ " Must be present")
  | some key =>
    if key = "" then some ("Entity at #" ++ natText item ++ " Must be present")
    else if r.keys.contains key then none
    else some ("Entity at #" ++ natText item ++ " is not a valid entity reference")

/-- What is wrong with the field of a criterion. -/
def fieldComplaint? (item : Nat) (field : Option String) : Option String :=
  match field with
  | none => some (missing item "field")
  | some field =>
    if Text.trim field = "" then some (missing item "field")
    else if (FieldPath.ofText field).isPlain then none
    else some (badPath item)

/-- What is wrong with the operator of a criterion. -/
def operatorComplaint? (item : Nat) (op : Option String) : Option String :=
  match op with
  | none => some (missing item "where")
  | some op =>
    if Text.trim op = "" then some (missing item "where")
    else if (Operator.parse? op).isSome then none
    else some (badOperator item op)

/-- What is wrong with the value of a criterion. -/
def valueComplaint? (item : Nat) (value : Option Value) : Option String :=
  match value with
  | none => some (missing item "value")
  | some _ => none

/-- Everything that is wrong with a criterion. -/
def criterionComplaints (item : Nat) (c : Criterion) (criterion : Nat) : List Complaint :=
  let place := criterionPlace item criterion
  ((fieldComplaint? item c.field).map (place "field", ·)).toList ++
    ((operatorComplaint? item c.op).map (place "where", ·)).toList ++
    ((valueComplaint? item c.value).map (place "value", ·)).toList

/-- Everything that is wrong with an item. -/
def itemComplaints (r : Rules) (i : SearchItem) (item : Nat) : List Complaint :=
  ((r.entityComplaint? item i.key?).map (entityPlace item, ·)).toList ++
    (i.criteriaList.zipIdx.flatMap fun (c, j) => criterionComplaints item c j)

/-- Everything that is wrong with a request. -/
def complaints (r : Rules) (request : SearchRequest) : List Complaint :=
  request.items.zipIdx.flatMap fun (i, k) => r.itemComplaints i k

/-- **Checking a request.** -/
def validate (r : Rules) (request : SearchRequest) : Except Messages Unit :=
  ((r.complaints request).foldl (fun m c => m.add c.1 c.2) Messages.empty).result

end Rules

end DottedQuery
