import DottedQuery.Catalog.Entity

/-!
# Catalogs

A catalog knows every entity that a search may reach, by name, and the keys under which some of
them may be searched. `DottedQuery.Catalog.check` says whether its references hold: every key
and every relation leads to an entity, and every relation between many and many has its pivot
table.
-/

namespace DottedQuery

/-- Entities and the keys under which they may be searched. -/
structure Catalog where
  /-- The entities, by name. -/
  entities : Dict Entity
  /-- The name of the entity under each search key. -/
  searchKeys : Dict String

namespace Catalog

/-- The catalog without entities and keys. -/
def empty : Catalog := ⟨Dict.empty, Dict.empty⟩

/-- The entity with the name. -/
def entity? (c : Catalog) (name : String) : Option Entity := c.entities.get? name

/-- Adds an entity, in the stead of one with its name. -/
def add (c : Catalog) (e : Entity) : Catalog := { c with entities := c.entities.insert e.name e }

/-- Lets an entity be searched under a key. -/
def expose (c : Catalog) (key name : String) : Catalog :=
  { c with searchKeys := c.searchKeys.insert key name }

/-- The entity under a search key. -/
def resolve? (c : Catalog) (key : String) : Option Entity :=
  (c.searchKeys.get? key).bind c.entity?

/-- Whether there is such a search key. -/
def hasKey (c : Catalog) (key : String) : Bool := c.searchKeys.contains key

/-- The search keys, sorted. -/
def keys (c : Catalog) : List String := c.searchKeys.keys

/-- The number of entities. -/
def entityCount (c : Catalog) : Nat := c.entities.size

/-! ### Checking the references -/

/-- What is wrong with a search key. -/
def keyFault? (c : Catalog) (key name : String) : Option ConfigFault :=
  if c.entities.contains name then none else some (.unknownSearchEntity key name)

/-- What is wrong with a relation of an entity. -/
def relationFault? (c : Catalog) (e : Entity) (r : Relation) : Option ConfigFault :=
  if !c.entities.contains r.related then some (.unknownRelated e.name r.name r.related)
  else if r.kind.isManyToMany && r.pivot.isNone then some (.missingPivot e.name r.name)
  else none

/-- The first thing that is wrong with the references of the catalog: search keys come first, in
their order, then the relations of the entities. -/
def fault? (c : Catalog) : Option ConfigFault :=
  (c.searchKeys.entries.findSome? fun (key, name) => c.keyFault? key name).or
    (c.entities.values.findSome? fun e => e.relations.findSome? (c.relationFault? e))

/-- **Checking a catalog.** -/
def check (c : Catalog) : Except SearchError Unit :=
  match c.fault? with
  | none => .ok ()
  | some fault => .error (.config fault)

end Catalog

end DottedQuery
