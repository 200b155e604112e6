import DottedQuery.Catalog.Basic
import DottedQuery.Proofs.Catalog.Related
import DottedQuery.Query.Alias

/-!
# Tables that are told apart

Aliases are made without a look at the catalog, so nothing keeps a table from being spelled like
one. What is proved about aliases asks for a catalog in which no table is
(`DottedQuery.Catalog.Avoids`), and what is proved about the meaning of sub-queries for one whose
pivot tables are not the tables on either side of them (`DottedQuery.Catalog.PivotsApart`). Both
are read off the list of entities; a table that does not even begin with the stem is no alias of
it (`DottedQuery.AliasSupply.ne_name`).
-/

namespace DottedQuery

/-- An alias begins with its stem. -/
theorem AliasSupply.ne_name {stem table : String} (h : ¬stem.toList <+: table.toList) (n : Nat) :
    table ≠ AliasSupply.name stem n := by
  rintro rfl
  refine h ?_
  rw [AliasSupply.name, String.toList_append]
  exact List.prefix_append _ _

namespace Dict

variable {α : Type}

/-- What is read under a key is one of the values. -/
theorem mem_values_of_get? {d : Dict α} {key : String} {value : α} (h : d.get? key = some value) :
    value ∈ d.values :=
  List.mem_map.mpr ⟨(key, value), get?_eq_some_iff.mp h, rfl⟩

end Dict

/-- The relations that paths find are declared by the entity. -/
theorem Entity.mem_of_relation? {e : Entity} {name : String} {r : Relation}
    (h : e.relation? name = some r) : r ∈ e.relations := List.mem_of_find?_eq_some h

namespace Catalog

/-- No table and no pivot table of the catalog is spelled like an alias of the given stem. -/
structure Avoids (catalog : Catalog) (stem : String) : Prop where
  /-- Tables of entities are not. -/
  table_ne : ∀ {name e}, catalog.entity? name = some e → ∀ n, e.table ≠ AliasSupply.name stem n
  /-- Pivot tables are not. -/
  pivot_ne : ∀ {name e}, catalog.entity? name = some e → ∀ r ∈ e.relations, ∀ p,
    r.through? = some p → ∀ n, p.table ≠ AliasSupply.name stem n

/-- No pivot table is the table of one of the two entities it relates. -/
structure PivotsApart (catalog : Catalog) : Prop where
  /-- It is not that of the entity that declares the relation. -/
  parent_ne : ∀ {name e}, catalog.entity? name = some e → ∀ r ∈ e.relations, ∀ p,
    r.through? = some p → p.table ≠ e.table
  /-- It is not that of the related entity. -/
  related_ne : ∀ {name e}, catalog.entity? name = some e → ∀ r ∈ e.relations, ∀ p,
    r.through? = some p → ∀ related, catalog.entity? r.related = some related →
      p.table ≠ related.table

/-- A catalog avoids a stem if no table of its entities begins with it. -/
theorem avoids_of_entities {catalog : Catalog} {stem : String}
    (h : ∀ e ∈ catalog.entities.values, ¬stem.toList <+: e.table.toList ∧
      ∀ r ∈ e.relations, ∀ p ∈ r.through?, ¬stem.toList <+: p.table.toList) :
    catalog.Avoids stem where
  table_ne he := AliasSupply.ne_name (h _ (Dict.mem_values_of_get? he)).1
  pivot_ne he r hr p hp := AliasSupply.ne_name ((h _ (Dict.mem_values_of_get? he)).2 r hr p hp)

/-- Pivot tables are told apart if they are from all tables of entities. -/
theorem pivotsApart_of_entities {catalog : Catalog}
    (h : ∀ e ∈ catalog.entities.values, ∀ r ∈ e.relations, ∀ p ∈ r.through?,
      ∀ e' ∈ catalog.entities.values, p.table ≠ e'.table) :
    catalog.PivotsApart where
  parent_ne he r hr p hp :=
    h _ (Dict.mem_values_of_get? he) r hr p hp _ (Dict.mem_values_of_get? he)
  related_ne he r hr p hp _ hrelated :=
    h _ (Dict.mem_values_of_get? he) r hr p hp _ (Dict.mem_values_of_get? hrelated)

end Catalog

end DottedQuery
