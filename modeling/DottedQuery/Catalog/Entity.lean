import DottedQuery.Catalog.AllowList
import DottedQuery.Catalog.Relation

/-!
# Entities

An entity is a table with what a search may do with it: whether it may be searched at all, what
an order may use, which fields are hidden from filters that come through a relation, and the
relations that lead on from it.
-/

namespace DottedQuery

/-- An entity. -/
structure Entity where
  /-- Its name, by which relations and search keys refer to it. -/
  name : String
  /-- Its table. -/
  table : String
  /-- Whether it takes part in searches. -/
  searchable : Bool
  /-- The fields and relations an order may use. -/
  allowed : AllowList
  /-- The fields that are never filtered on through a relation. -/
  hidden : NameSet
  /-- The relations it declares. -/
  relations : List Relation

namespace Entity

/-- An entity with nothing said about it but its name and table. -/
def ofTable (name table : String) : Entity :=
  ⟨name, table, false, AllowList.empty, Dict.empty, []⟩

/-- Lets the entity take part in searches. -/
def makeSearchable (e : Entity) : Entity := { e with searchable := true }

/-- Lists a name with every field behind it. -/
def allow (e : Entity) (name : String) : Entity := { e with allowed := e.allowed.allow name }

/-- Lists a name with the given fields behind it. -/
def allowLeaves (e : Entity) (name : String) (fields : List String) : Entity :=
  { e with allowed := e.allowed.allowLeaves name fields }

/-- Hides a field. -/
def hide (e : Entity) (field : String) : Entity := { e with hidden := e.hidden.insert field () }

/-- Declares a relation after the others. -/
def addRelation (e : Entity) (r : Relation) : Entity := { e with relations := e.relations ++ [r] }

/-- Whether a field is hidden. -/
def isHidden (e : Entity) (field : String) : Bool := e.hidden.contains field

/-- The first relation with the name. -/
def relation? (e : Entity) (name : String) : Option Relation :=
  e.relations.find? fun r => r.name = name

end Entity

end DottedQuery
