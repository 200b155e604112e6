import DottedQuery.Search.Filter
import DottedQuery.Search.Joins
import DottedQuery.Search.Rules

/-!
# Compiling searches

A searcher compiles requests against one catalog. A request is checked by the rules first; then
every item is compiled in turn, so that a failure in any of them fails the request, and the
query of the last one is returned (`DottedQuery.Searcher.compile`).

The query of an item reads the table of its entity. A criterion on a field of the entity itself
is a predicate on that table, one whose path follows relations becomes a nest of sub-queries
(`DottedQuery.Filter.walk`); an order comes last (`DottedQuery.OrderPath.apply`). Aliases are
numbered through the whole request.
-/

namespace DottedQuery

/-- What compiles searches. -/
structure Searcher where
  /-- The entities and their search keys. -/
  catalog : Catalog
  /-- What is done about filters on hidden fields. -/
  policy : HiddenFieldPolicy

namespace Searcher

/-- The aliases of one compilation. -/
structure Supplies where
  /-- The aliases of sub-queries. -/
  filters : AliasSupply
  /-- The aliases of joined tables. -/
  joins : AliasSupply

/-- The aliases at the beginning. -/
def Supplies.initial : Supplies := ⟨.forExists, .forJoins⟩

/-- The searcher for a catalog, with the policy of leaving comparisons with hidden fields out.
-/
def ofCatalog (catalog : Catalog) : Searcher := ⟨catalog, .drop⟩

/-- The searcher for a configuration. -/
def ofConfiguration (c : Configuration) : Except SearchError Searcher :=
  c.catalog.map fun catalog => ⟨catalog, c.policy⟩

/-- The searcher for a configuration whose references are not checked. -/
def ofUnchecked (c : Configuration) : Searcher := ⟨c.uncheckedCatalog, c.policy⟩

/-- The same searcher with another policy. -/
def withPolicy (s : Searcher) (policy : HiddenFieldPolicy) : Searcher :=
  { s with policy := policy }

/-- The rules for requests. -/
def rules (s : Searcher) : Rules := ⟨s.catalog.keys⟩

/-- The parts of a criterion that its compilation needs; none may be missing. -/
def parts? (c : Criterion) : Option (FieldPath × Operator × Value) := do
  let op ← c.operator?
  let value ← c.value
  let path ← c.path?
  return (path, op, value)

/-- The combinator of the criterion at a position. The first one has nothing to be an
alternative to. -/
def combinator (position : Nat) (c : Criterion) : Combinator :=
  if position = 0 then .and else .ofOr c.or

/-- Adds a criterion to the query of an entity. -/
def applyCriterion (s : Searcher) (entity : Entity) (combinator : Combinator) (path : FieldPath)
    (op : Operator) (value : Value) (q : Select) (supply : AliasSupply) :
    Except SearchError (Select × AliasSupply) :=
  if path.isRelational then
    match Filter.walk s.catalog s.policy ⟨path.field, op, value⟩ path.relations
        ⟨entity, entity.table⟩ supply with
    | .error e => .error e
    | .ok (none, supply) => .ok (q, supply)
    | .ok (some sub, supply) => .ok (q.addCondition ⟨combinator, .exists sub⟩, supply)
  else
    let test := Predicate.forOperator (.named entity.table path.field) op value
    .ok (q.addCondition ⟨combinator, test⟩, supply)

/-- Adds criteria to the query of an entity, the first of them at the given position of the
item. -/
def applyCriteria (s : Searcher) (item : Nat) (entity : Entity) :
    Nat → List Criterion → Select → AliasSupply → Except SearchError (Select × AliasSupply)
  | _, [], q, supply => .ok (q, supply)
  | position, c :: cs, q, supply =>
    match parts? c with
    | none => .error (.malformedCriterion item position)
    | some (path, op, value) =>
      match s.applyCriterion entity (combinator position c) path op value q supply with
      | .error e => .error e
      | .ok (q, supply) => s.applyCriteria item entity (position + 1) cs q supply

/-- Orders the query of an entity, if an order is asked for. -/
def applyOrder (s : Searcher) (entity : Entity) (order : Option OrderPath) (q : Select)
    (supply : AliasSupply) : Except SearchError (Select × AliasSupply) :=
  match order with
  | none => .ok (q, supply)
  | some order => order.apply s.catalog entity q supply

/-- The entity that an item searches. -/
def entityOf (s : Searcher) (item : SearchItem) : Except SearchError Entity :=
  let key := item.key?.getD ""
  match s.catalog.resolve? key with
  | none => .error (.unknownEntity key)
  | some entity => if entity.searchable then .ok entity else .error (.notSearchable key)

/-- The query of an item, and the aliases after it. -/
def compileItem (s : Searcher) (index : Nat) (item : SearchItem) (order : Option OrderPath)
    (supplies : Supplies) : Except SearchError (Select × Supplies) :=
  match s.entityOf item with
  | .error e => .error e
  | .ok entity =>
    match s.applyCriteria index entity 0 item.criteriaList (.ofTable entity.table)
        supplies.filters with
    | .error e => .error e
    | .ok (q, filters) =>
      match s.applyOrder entity order q supplies.joins with
      | .error e => .error e
      | .ok (q, joins) => .ok (q.addProjection (.allOf entity.table), ⟨filters, joins⟩)

/-- The query of the last of the items, the first of which has the given index; `q` is the query
of the item before them. -/
def compileItems (s : Searcher) (order : Option OrderPath) :
    Nat → List SearchItem → Option Select → Supplies → Except SearchError (Option Select)
  | _, [], q, _ => .ok q
  | index, item :: items, _, supplies =>
    match s.compileItem index item order supplies with
    | .error e => .error e
    | .ok (q, supplies) => s.compileItems order (index + 1) items (some q) supplies

/-- **Compiling a request**, with an order or without one. -/
def compile (s : Searcher) (request : SearchRequest) (order : Option OrderPath) :
    Except SearchError Select :=
  if request.items.isEmpty then .error .emptyRequest
  else
    match s.rules.validate request with
    | .error messages => .error (.invalid messages)
    | .ok () =>
      match s.compileItems order 0 request.items none .initial with
      | .error e => .error e
      | .ok none => .error .emptyRequest
      | .ok (some q) => .ok q

/-- **Compiling a request** with the order that two parameters ask for. -/
def compileWith (s : Searcher) (request : SearchRequest) (orderBy orderAs : Option String) :
    Except SearchError Select :=
  match OrderPath.ofParams orderBy orderAs with
  | .error e => .error e
  | .ok order => s.compile request order

end Searcher

end DottedQuery
