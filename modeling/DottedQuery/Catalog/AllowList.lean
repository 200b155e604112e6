import DottedQuery.Dict

/-!
# Allow-lists

An entity lists the fields and relations that an order may use. Behind a relation the list may
admit every field or only some; a name that is listed twice keeps its last entry.
-/

namespace DottedQuery

/-- The fields that are permitted behind a listed name. -/
inductive Leaves where
  /-- Every field. -/
  | any : Leaves
  /-- The fields of a set. -/
  | only (fields : NameSet) : Leaves

namespace Leaves

/-- Whether a field is permitted. -/
def permits (field : String) : Leaves → Bool
  | any => true
  | only fields => fields.contains field

end Leaves

/-- The names an order may use, with the fields permitted behind each. -/
structure AllowList where
  /-- The listed names. -/
  entries : Dict Leaves

namespace AllowList

/-- The list without names. -/
def empty : AllowList := ⟨Dict.empty⟩

/-- Lists a name with every field behind it. -/
def allow (a : AllowList) (name : String) : AllowList := ⟨a.entries.insert name .any⟩

/-- Lists a name with the given fields behind it. -/
def allowLeaves (a : AllowList) (name : String) (fields : List String) : AllowList :=
  ⟨a.entries.insert name (.only (NameSet.ofNames fields))⟩

/-- The fields permitted behind a name, if it is listed. -/
def get? (a : AllowList) (name : String) : Option Leaves := a.entries.get? name

/-- Whether a name is listed. -/
def allows (a : AllowList) (name : String) : Bool := a.entries.contains name

/-- Whether a name is listed and a field permitted behind it. -/
def allowsLeaf (a : AllowList) (name field : String) : Bool :=
  (a.get? name).any (Leaves.permits field)

/-- The listed names, sorted. -/
def names (a : AllowList) : List String := a.entries.keys

/-- Whether nothing is listed. -/
def isEmpty (a : AllowList) : Bool := a.entries.isEmpty

end AllowList

end DottedQuery
