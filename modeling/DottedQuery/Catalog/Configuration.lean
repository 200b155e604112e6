import DottedQuery.Catalog.Basic

/-!
# Configurations

A configuration lists the entities and the search keys of a service and says what happens to
filters on hidden fields. It is accepted when its entities have different names and the catalog
made of it passes its check.
-/

namespace DottedQuery

/-- What happens to a filter that reaches a hidden field through a relation. -/
inductive HiddenFieldPolicy where
  /-- The comparison is left out. -/
  | drop : HiddenFieldPolicy
  /-- The search is refused. -/
  | deny : HiddenFieldPolicy
deriving DecidableEq, Repr

namespace HiddenFieldPolicy

/-- The policy in a configuration. -/
def spelling : HiddenFieldPolicy → String
  | drop => "drop"
  | deny => "deny"

/-- The policy with the given spelling. -/
def ofSpelling? (s : String) : Option HiddenFieldPolicy :=
  [drop, deny].find? fun p => p.spelling = s

end HiddenFieldPolicy

/-- What a service is told at its start. -/
structure Configuration where
  /-- The name of the entity under each search key. -/
  searchModels : Dict String
  /-- The entities. -/
  entities : List Entity
  /-- What happens to filters on hidden fields. -/
  policy : HiddenFieldPolicy

namespace Configuration

/-- The catalog of a configuration, its references not yet checked. Of two entities with one
name it has the later. -/
def uncheckedCatalog (c : Configuration) : Catalog :=
  { entities := c.entities.foldl (fun d e => d.insert e.name e) Dict.empty
    searchKeys := c.searchModels }

/-- The first name that an earlier entity has already, where `seen` are the names so far. -/
def duplicate? (seen : List String) : List Entity → Option String
  | [] => none
  | e :: es => if seen.contains e.name then some e.name else duplicate? (e.name :: seen) es

/-- **The catalog of a configuration**, if the configuration is in order. -/
def catalog (c : Configuration) : Except SearchError Catalog :=
  match duplicate? [] c.entities with
  | some name => .error (.config (.duplicateEntity name))
  | none =>
    match c.uncheckedCatalog.check with
    | .error e => .error e
    | .ok () => .ok c.uncheckedCatalog

end Configuration

end DottedQuery
