import DottedQuery.Catalog.Configuration
import DottedQuery.Query.Alias
import DottedQuery.Query.Repoint

/-!
# Filters through relations

A criterion whose path follows relations asks for the existence of a related row. Every relation
of the path becomes one `exists` sub-query inside the one before it, and the innermost one
carries the comparison of the criterion, its *leaf* (`DottedQuery.Filter.walk`).

The walk may end early. A relation that filters may not follow cuts the path there: the levels
before it stay, and when it is the first relation there is nothing left of the criterion. A leaf
that is hidden on the last entity is left out or refused, as the policy says.

Each level takes an alias for its table before the levels inside it do, so the aliases are
numbered from the outside in.
-/

namespace DottedQuery

namespace Filter

/-- What a criterion compares at the end of its path. -/
structure Leaf where
  /-- The field. -/
  field : String
  /-- The operator. -/
  op : Operator
  /-- The value. -/
  value : Value

/-- Where a relation is followed from. -/
structure Hop where
  /-- The entity that declares the relation. -/
  entity : Entity
  /-- The name its table goes by in the query around: its own at the root, its alias further in.
  -/
  qualifier : String

/-- The sub-query of a relation with its table under an alias: its columns are qualified by the
alias, and those of the table around it by the qualifier of the hop. -/
def level (relation : Relation) (hop : Hop) (related : Entity) (label : String) :
    Except SearchError Select :=
  match relation.existsQuery hop.entity.table related.table with
  | .error e => .error e
  | .ok sub =>
    .ok (Repointing.select ⟨related.table, label, some (hop.entity.table, hop.qualifier)⟩
      (sub.aliased label))

/-- Adds the leaf to the innermost level, unless it is hidden there. -/
def addLeaf (policy : HiddenFieldPolicy) (related : Entity) (label : String) (leaf : Leaf)
    (sub : Select) : Except SearchError Select :=
  if related.isHidden leaf.field then
    match policy with
    | .drop => .ok sub
    | .deny => .error (.denied related.name leaf.field)
  else .ok (sub.addWhere (.forOperator (.named label leaf.field) leaf.op leaf.value))

/-- Adds the next level inside a level, if there is one. -/
def nest (sub : Select) : Option Select → Select
  | none => sub
  | some inner => sub.addWhere (.exists inner)

/-- **The sub-query of a path**, if anything is left of it, and the supply of aliases after it.
-/
def walk (catalog : Catalog) (policy : HiddenFieldPolicy) (leaf : Leaf) :
    List String → Hop → AliasSupply → Except SearchError (Option Select × AliasSupply)
  | [], _, supply => .ok (none, supply)
  | name :: rest, hop, supply =>
    match hop.entity.relation? name with
    | none => .error (.unknownRelation hop.entity.name name)
    | some relation =>
      if relation.isSearchable then
        match catalog.entity? relation.related with
        | none => .error (.unknownEntity relation.related)
        | some related =>
          match level relation hop related supply.current with
          | .error e => .error e
          | .ok sub =>
            if rest.isEmpty then
              match addLeaf policy related supply.current leaf sub with
              | .error e => .error e
              | .ok sub => .ok (some sub, supply.taken)
            else
              match walk catalog policy leaf rest ⟨related, supply.current⟩ supply.taken with
              | .error e => .error e
              | .ok (inner, supply) => .ok (some (nest sub inner), supply)
      else .ok (none, supply)

end Filter

end DottedQuery
