import DottedQuery.Proofs.Search.Written

/-!
# What an order adds to a query

An order adds two things to the query of a search: a chain of left joins, one for each relation of
its path, and one term. Everything else is as it is without an order, the aliases of the
sub-queries included, for joined tables are numbered on their own
(`DottedQuery.Searcher.compile_ordered`).

The chain is described link by link, without the supply that numbers it. A join *continues* from a
table by a relation (`DottedQuery.Join.Continues`) if it keeps rows without a partner and demands
the key equality of the relation (`DottedQuery.Relation.Ties`) first, then each of its constraints.
Joins lie *along* a path (`DottedQuery.Catalog.JoinsAlong`) if each continues from the one before
it, the first one from the table that is searched.
-/

namespace DottedQuery

/-! ### Joins along a path -/

/-- **The key equality of a relation** between the table that declares it, which goes by `parent`,
and the related table, which goes by `label`. There is none for a relation that goes through a
pivot table. -/
inductive Relation.Ties (r : Relation) (parent label : String) : Predicate → Prop where
  /-- The key stands on the declaring side. -/
  | belongsTo (kind : r.kind = .belongsTo) :
      Ties r parent label (.columns (.named label r.ownerKey) .eq (.named parent r.foreignKey))
  /-- The key stands on the related side. -/
  | has (kind : r.kind = .hasOne ∨ r.kind = .hasMany) :
      Ties r parent label (.columns (.named parent r.ownerKey) .eq (.named label r.foreignKey))

/-- **A join continues** from a table that goes by `parent`, by a relation to an entity. -/
structure Join.Continues (j : Join) (parent : String) (r : Relation) (related : Entity) : Prop where
  /-- Rows without a partner are kept. -/
  kind : j.kind = .left
  /-- The joined table is that of the entity. -/
  table : j.source.table = related.table
  /-- It goes by an alias. -/
  label : ∃ label, j.source.label = some label
  /-- First comes the key equality, then each constraint, and all of them have to hold. -/
  on : ∃ key, r.Ties parent j.source.qualifier key ∧
    j.on = ⟨.and, key⟩ :: r.constraints.map fun c =>
      ⟨.and, .forOperator (.named j.source.qualifier c.column) c.op c.value⟩

/-- **Joins along a path**: one for each relation that the names stand for from an entity on, whose
table goes by `parent`; the last of the tables goes by `final`. -/
inductive Catalog.JoinsAlong (catalog : Catalog) :
    Entity → String → List String → List Join → String → Prop where
  /-- Nothing is joined. -/
  | nil (e : Entity) (parent : String) : JoinsAlong catalog e parent [] [] parent
  /-- The table of a relation is joined, and the others from there. -/
  | cons {e related : Entity} {relation : Relation} {parent name final : String}
      {names : List String} {j : Join} {js : List Join} (declared : e.relation? name = some relation)
      (defined : catalog.entity? relation.related = some related)
      (first : j.Continues parent relation related)
      (rest : JoinsAlong catalog related j.source.qualifier names js final) :
      JoinsAlong catalog e parent (name :: names) (j :: js) final

/-- There is a join for each relation. -/
theorem Catalog.JoinsAlong.length {catalog : Catalog} {e : Entity} {parent final : String}
    {names : List String} {js : List Join} (h : catalog.JoinsAlong e parent names js final) :
    js.length = names.length := by
  induction h with
  | nil => rfl
  | cons _ _ _ _ ih => rw [List.length_cons, List.length_cons, ih]

/-! ### The joins of a chain -/

/-- The conditions of a join begin with the key equality of the relation. -/
theorem Relation.ties_joinOn {r : Relation} (h : r.kind ≠ .belongsToMany) (parent label : String) :
    ∃ key, r.Ties parent label key ∧
      r.joinOn parent label = ⟨.and, key⟩ :: r.constraintConditions label := by
  unfold joinOn
  rcases hk : r.kind
  · exact ⟨_, .belongsTo hk, rfl⟩
  · exact ⟨_, .has (Or.inl hk), rfl⟩
  · exact ⟨_, .has (Or.inr hk), rfl⟩
  · exact absurd hk h

namespace OrderPath

/-- **The joins of a chain lie along its path.** -/
theorem joinsAlong_of_chain {catalog : Catalog} {field : String} {names : List String} {e : Entity}
    {links : List Link} (h : chain catalog field names e = .ok links) (parent : String)
    (supply : AliasSupply) :
    catalog.JoinsAlong e parent names (chainJoins links parent supply)
      (chainEnd links parent supply) := by
  induction names generalizing e links parent supply with
  | nil =>
    obtain rfl : [] = links := Except.ok.inj h
    exact .nil e parent
  | cons name names ih =>
    obtain ⟨l, links, rfl, hrel, hent, hkind, hrest⟩ := chain_cons_cases h
    exact .cons hrel hent ⟨rfl, rfl, ⟨_, rfl⟩, Relation.ties_joinOn hkind parent supply.current⟩
      (ih hrest supply.current supply.taken)

end OrderPath

/-! ### Queries with an order and without -/

/-- **Ordering only adds joins and a term.** A request that compiles with an order compiles without
it, to the query that is left when the joins and the terms are taken away. The query reads the
table of the entity that the last item searches, under its own name, and returns all of its
columns. Its joins lie along the path of the order, one for each relation, and its only term has
the field of the path, on the last of the tables, and the direction of the order. -/
theorem Searcher.compile_ordered {s : Searcher} {request : SearchRequest} {order : OrderPath}
    {q : Select} (h : s.compile request (some order) = .ok q) :
    ∃ (item : SearchItem) (root : Entity) (final : String),
      request.items.getLast? = some item ∧
      s.catalog.resolve? (item.key?.getD "") = some root ∧
      s.compile request none = .ok { q with joins := [], orderBy := [] } ∧
      q.source = ⟨root.table, none⟩ ∧ q.projection = [.allOf root.table] ∧
      q.joins.length = order.path.relations.length ∧
      s.catalog.JoinsAlong root root.table order.path.relations q.joins final ∧
      q.orderBy = [⟨.named final order.path.field, order.direction⟩] := by
  obtain ⟨index, item, p, filters, joins, joins', hlast, hplan, rfl, hnone⟩ :=
    compile_none_of_compile h
  obtain ⟨ls, horder, hchain⟩ := chain_of_plan hplan
  have hlinks : p.links = ls := by rw [Plan.links, horder, Option.map_some, Option.getD_some]
  have halong := OrderPath.joinsAlong_of_chain hchain p.entity.table (.after .forJoins joins)
  rw [← hlinks] at halong
  refine ⟨item, p.entity, _, hlast, resolve?_of_entityOf (plan_cases hplan).1, hnone, rfl, rfl,
    halong.length, halong, ?_⟩
  rw [Plan.query, Plan.orderTerms, horder, hlinks]
  rfl

namespace Blog

/-- The searcher for a catalog that lets the posts of users be used in orders. -/
def outspoken : Searcher := .ofCatalog (catalog.add (user.allow "posts"))

end Blog

/-- The theorem at an order by the titles of the posts of the managers of users, of which only the
published ones are looked at. -/
theorem Searcher.compile_ordered_blog :
    ∃ q, Blog.outspoken.compile ⟨[Blog.admins]⟩ (some (.ofText "manager.posts.title" .desc)) = .ok q ∧
      Blog.outspoken.compile ⟨[Blog.admins]⟩ none = .ok { q with joins := [], orderBy := [] } ∧
      q.joins.length = 2 ∧ q.orderBy.map OrderTerm.direction = [.desc] := by
  obtain ⟨q, hq⟩ : ∃ q, Blog.outspoken.compile ⟨[Blog.admins]⟩
      (some (.ofText "manager.posts.title" .desc)) = .ok q := ⟨_, rfl⟩
  obtain ⟨item, root, final, -, -, hnone, -, -, hlength, -, hterm⟩ := Searcher.compile_ordered hq
  exact ⟨q, hq, hnone, hlength, by rw [hterm]; rfl⟩

end DottedQuery
