import DottedQuery.Catalog.Basic
import DottedQuery.Query.Alias
import DottedQuery.Search.Path

/-!
# Orders through relations

An order whose path follows relations joins every related table to the query and orders by a
column of the last one. Orders are held to the allow-lists and never use a hidden field,
whatever is done about hidden fields in filters: each relation has to be listed by the entity it
is followed from, and the last one has to admit the field behind it.

The tables joined so far are kept under their own names with their latest alias
(`DottedQuery.OrderPath.joins`), and a relation starts from the alias of its entity's table.
-/

namespace DottedQuery

namespace OrderPath

/-- The relation of one hop and the entity it leads to, where `last` says that the field is
asked of that entity. The allow-list is looked at first, then the relation, then what it leads
to. -/
def hop (catalog : Catalog) (field : String) (entity : Entity) (name : String) (last : Bool) :
    Except SearchError (Relation × Entity) :=
  if !entity.allowed.allows name then .error (.denied entity.name name)
  else if last && !entity.allowed.allowsLeaf name field then
    .error (.denied entity.name (name ++ "." ++ field))
  else
    match entity.relation? name with
    | none => .error (.unknownRelation entity.name name)
    | some relation =>
      match catalog.entity? relation.related with
      | none => .error (.unknownEntity relation.related)
      | some related =>
        if last && related.isHidden field then .error (.denied related.name field)
        else .ok (relation, related)

/-- The name that a table goes by: its latest alias, or its own name when it has not been
joined. -/
def latest (aliases : Dict String) (table : String) : String := (aliases.get? table).getD table

/-- What following the relations of an order leaves behind. -/
structure Joined where
  /-- The joined tables, in order. -/
  joins : List Join
  /-- The name that the table of the last entity goes by. -/
  qualifier : String
  /-- The supply of aliases afterwards. -/
  supply : AliasSupply

/-- **The joins of an order**: the relations that are still to be followed from an entity, where
`aliases` holds the latest alias of each table joined so far. -/
def joins (catalog : Catalog) (field : String) :
    List String → Entity → Dict String → AliasSupply → Except SearchError Joined
  | [], entity, aliases, supply => .ok ⟨[], latest aliases entity.table, supply⟩
  | name :: rest, entity, aliases, supply =>
    match hop catalog field entity name rest.isEmpty with
    | .error e => .error e
    | .ok (relation, related) =>
      match relation.joinConditions (latest aliases entity.table) supply.current with
      | .error e => .error e
      | .ok on =>
        match joins catalog field rest related (aliases.insert related.table supply.current)
            supply.taken with
        | .error e => .error e
        | .ok joined =>
          .ok { joined with
            joins := ⟨.left, ⟨related.table, some supply.current⟩, on⟩ :: joined.joins }

/-- **Ordering a query** whose root is an entity: a field of the root orders by its table, and
any other by the last table that the path joins. -/
def apply (catalog : Catalog) (root : Entity) (order : OrderPath) (q : Select)
    (supply : AliasSupply) : Except SearchError (Select × AliasSupply) :=
  let field := order.path.field
  if order.path.isRelational then
    match joins catalog field order.path.relations root Dict.empty supply with
    | .error e => .error e
    | .ok joined =>
      .ok ((q.addJoins joined.joins).addOrder (.named joined.qualifier field) order.direction,
        joined.supply)
  else if root.isHidden field then .error (.denied root.name field)
  else .ok (q.addOrder (.named root.table field) order.direction, supply)

end OrderPath

end DottedQuery
