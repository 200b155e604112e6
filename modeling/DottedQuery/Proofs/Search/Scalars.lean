import DottedQuery.Proofs.Catalog.Closed
import DottedQuery.Proofs.Query.Placeholders
import DottedQuery.Proofs.Search.Level
import DottedQuery.Proofs.Search.Written
import Mathlib.Data.List.Permutation

/-!
# What is bound

The bindings of a search come from comparisons with values, and of these there are two kinds: the
criteria of the last item, and the constraints of the relations that its criteria and its order
follow. Which of them are written, and in which order, can be read off the catalog
(`DottedQuery.Catalog.comparisons`), and the bindings are what they compare with, one after
another (`DottedQuery.Searcher.bindings_of_compile`).

Lists of values are meant for the set operators, which compare with the members of a list. A
comparison *fits* (`DottedQuery.Comparison.Fits`) if it keeps to that: a list stands behind a set
operator only, and has no lists for members. Neither the rules nor the compiler ask for it, so a
search binds scalars only exactly if all of its comparisons fit, and one that does not fit binds a
list (`DottedQuery.Newsroom.binds_lists`).
-/

namespace DottedQuery

open DottedQuery.Filter (Clause Leaf Step)

/-! ### Comparisons -/

/-- A comparison of a column with a value. -/
structure Comparison where
  /-- The operator. -/
  op : Operator
  /-- The value. -/
  value : Value

namespace Comparison

/-- What a comparison compares with: a set operator with the members of its value, any other one
with the value itself. -/
def operands (c : Comparison) : List Value :=
  if c.op.isSet then c.value.members else [c.value]

/-- **A comparison fits**: if its value is a list, then its operator compares with a set, and no
member of the list is a list itself. -/
def Fits (c : Comparison) : Prop :=
  ∀ vs, c.value = .array vs → c.op.isSet = true ∧ ∀ v ∈ vs, v.isArray = false

/-- **The comparisons that fit are those that compare with scalars.** -/
theorem fits_iff (c : Comparison) : c.Fits ↔ ∀ v ∈ c.operands, v.isArray = false := by
  obtain ⟨op, value⟩ := c
  rcases hop : op.isSet with _ | _
  · -- the value is compared with as it is
    rcases value <;> simp [Fits, operands, hop, Value.isArray]
  · rcases value <;> simp [Fits, operands, hop, Value.isArray, Value.members]

end Comparison

/-- The comparisons that a relation always makes. -/
def Relation.comparisons (r : Relation) : List Comparison :=
  r.constraints.map fun c => ⟨c.op, c.value⟩

namespace Catalog

variable (catalog : Catalog)

/-- The comparisons of a filter that follows relations from an entity on: the constraints of each
relation that filters may follow, up to the first they may not, and at the end that of the
criterion, unless the entity there hides its field. -/
def filterComparisons (field : String) (final : Comparison) :
    List String → Entity → List Comparison
  | [], e => if e.isHidden field then [] else [final]
  | name :: names, e =>
    ((e.relation? name).filter Relation.isSearchable).elim [] fun r =>
      r.comparisons ++ (catalog.entity? r.related).elim [] fun related =>
        filterComparisons field final names related

/-- The comparisons of an order that follows relations from an entity on: the constraints of all of
them. -/
def orderComparisons : List String → Entity → List Comparison
  | [], _ => []
  | name :: names, e =>
    (e.relation? name).elim [] fun r =>
      r.comparisons ++ (catalog.entity? r.related).elim [] fun related =>
        orderComparisons names related

/-- The comparisons of a criterion on an entity. A field of the entity itself is compared with
whether it is hidden or not. -/
def criterionComparisons (e : Entity) (c : Criterion) : List Comparison :=
  (Searcher.parts? c).elim [] fun (path, op, value) =>
    if path.isRelational then catalog.filterComparisons path.field ⟨op, value⟩ path.relations e
    else [⟨op, value⟩]

/-- **The comparisons of a search** for an entity, those of its order before those of its
criteria. -/
def comparisons (root : Entity) (item : SearchItem) (order : Option OrderPath) :
    List Comparison :=
  (order.elim [] fun o => catalog.orderComparisons o.path.relations root) ++
    item.criteriaList.flatMap (catalog.criterionComparisons root)

/-- Every constraint of a relation of the catalog fits. -/
def Fits : Prop := ∀ e, catalog.Has e → ∀ r ∈ e.relations, ∀ c ∈ r.comparisons, c.Fits

end Catalog

/-- Every criterion of an item fits. -/
def SearchItem.Fits (i : SearchItem) : Prop :=
  ∀ c ∈ i.criteriaList, ∀ path op value, Searcher.parts? c = some (path, op, value) →
    (Comparison.mk op value).Fits

/-! ### The values of conditions -/

/-- The values that a predicate binds, one list for each predicate within it that holds some. -/
def Predicate.bound (p : Predicate) : List (List Value) := p.valueNodes.map Predicate.ownValues

/-- The values that conditions bind, in the same way. -/
def boundBy (cs : List Condition) : List (List Value) :=
  (valueNodesOfConditions cs).map Predicate.ownValues

@[simp] theorem boundBy_nil : boundBy [] = [] := rfl

@[simp] theorem boundBy_cons (c : Condition) (cs : List Condition) :
    boundBy (c :: cs) = c.predicate.bound ++ boundBy cs := by
  obtain ⟨b, p⟩ := c
  rw [boundBy, valueNodesOfConditions, Condition.valueNodes, List.map_append]
  rfl

theorem boundBy_append (cs ds : List Condition) : boundBy (cs ++ ds) = boundBy cs ++ boundBy ds := by
  induction cs with
  | nil => rfl
  | cons c cs ih => rw [List.cons_append, boundBy_cons, boundBy_cons, ih, List.append_assoc]

/-- A comparison binds what it compares with. -/
theorem Predicate.bound_forOperator (column : Column) (op : Operator) (value : Value) :
    (Predicate.forOperator column op value).bound = [(Comparison.mk op value).operands] := by
  rw [forOperator, Comparison.operands]
  rcases op.isSet with _ | _ <;> rfl

/-- The key of a relation binds nothing. -/
theorem Relation.bound_keyCondition (r : Relation) (parent child : String → Column) :
    (r.keyCondition parent child).bound = [] := by
  unfold keyCondition
  rcases r.kind <;> rfl

/-- The constraints of a relation bind what they compare with. -/
theorem Relation.boundBy_constraintConditions (r : Relation) (table : String) :
    boundBy (r.constraintConditions table) = r.comparisons.map Comparison.operands := by
  unfold constraintConditions comparisons
  induction r.constraints with
  | nil => rfl
  | cons c cs ih =>
    rw [List.map_cons, boundBy_cons, ih, List.map_cons, List.map_cons]
    exact congrArg (· ++ _) (Predicate.bound_forOperator _ c.op c.value)

/-! ### The values of clauses and chains -/

/-- The comparisons of a clause. -/
def Filter.Clause.comparisons (c : Clause) : List Comparison :=
  (c.steps.flatMap fun st => st.relation.comparisons) ++
    c.leaf.toList.map fun leaf => ⟨leaf.op, leaf.value⟩

/-- The join of a pivot table holds no values. -/
theorem Filter.Step.valueNodesOfJoins_pivotJoins (st : Step) (label : String) :
    valueNodesOfJoins (st.pivotJoins label) = [] := by
  unfold pivotJoins
  rcases st.relation.through? with _ | p <;> rfl

/-- A level binds what its relation compares with, and then what is nested inside. -/
theorem Filter.bound_level (st : Step) (qualifier label : String) (inner : Option Predicate) :
    (Predicate.exists ((st.level qualifier label).addPredicate? .and inner)).bound =
      st.relation.comparisons.map Comparison.operands ++ inner.elim [] Predicate.bound := by
  have hwheres : boundBy (st.demands qualifier label ++ (inner.map (Condition.mk .and)).toList) =
      st.relation.comparisons.map Comparison.operands ++ inner.elim [] Predicate.bound := by
    rw [boundBy_append, Step.demands, boundBy_cons, Relation.boundBy_constraintConditions]
    rcases inner with _ | p <;> simp [Condition.and, Relation.bound_keyCondition]
  rw [level_addPredicate?, Predicate.bound, Predicate.valueNodes, Select.valueNodes,
    st.valueNodesOfJoins_pivotJoins]
  exact hwheres

/-- What is nested in a level binds the comparisons that are still to be made. -/
theorem Filter.Clause.bound_nested (leaf : Option Leaf) (steps : List Step) (qualifier : String)
    (supply : AliasSupply) :
    (nested leaf steps qualifier supply).elim [] Predicate.bound =
      (comparisons ⟨steps, leaf⟩).map Comparison.operands := by
  induction steps generalizing qualifier supply with
  | nil =>
    rcases leaf with _ | leaf
    · rfl
    · simpa [nested, comparisons, test] using Predicate.bound_forOperator _ leaf.op leaf.value
  | cons st steps ih =>
    rw [nested, Option.elim_some, bound_level, ih, ← List.map_append, comparisons, comparisons,
      List.flatMap_cons, List.append_assoc]

namespace Plan

/-- The conditions of clauses bind the comparisons of the clauses. -/
theorem boundBy_conditions (table : String) (cs : List (Combinator × Clause))
    (supply : AliasSupply) :
    boundBy (conditions table cs supply) =
      (cs.flatMap fun c => c.2.comparisons).map Comparison.operands := by
  induction cs generalizing supply with
  | nil => rfl
  | cons c cs ih =>
    have hfirst : boundBy ((c.2.predicate? table supply).map (Condition.mk c.1)).toList =
        c.2.comparisons.map Comparison.operands := by
      rw [← Clause.bound_nested c.2.leaf c.2.steps table supply, Clause.predicate?]
      rcases Clause.nested c.2.leaf c.2.steps table supply with _ | p <;> simp
    rw [conditions, boundBy_append, hfirst, ih, List.flatMap_cons, List.map_append]

end Plan

namespace OrderPath

/-- The joins of a chain bind the constraints of its relations. -/
theorem bound_chainJoins (ls : List Link) (parent : String) (supply : AliasSupply) :
    (valueNodesOfJoins (chainJoins ls parent supply)).map Predicate.ownValues =
      (ls.flatMap fun l => l.1.comparisons).map Comparison.operands := by
  induction ls generalizing parent supply with
  | nil => rfl
  | cons l ls ih =>
    have hon : boundBy (l.1.joinOn parent supply.current) =
        l.1.comparisons.map Comparison.operands := by
      rw [Relation.joinOn, boundBy_cons, Relation.boundBy_constraintConditions]
      rcases l.1.kind <;> rfl
    rw [chainJoins, valueNodesOfJoins, List.map_append, ih, List.flatMap_cons, List.map_append,
      ← hon]
    rfl

end OrderPath

/-- The comparisons of a plan, in the order in which they are written. -/
def Plan.comparisons (p : Plan) : List Comparison :=
  (p.links.flatMap fun l => l.1.comparisons) ++ p.clauses.flatMap fun c => c.2.comparisons

/-- The predicates of a plan that hold values are its comparisons. -/
theorem Plan.bound_query (p : Plan) (supplies : Searcher.Supplies) :
    (p.query supplies).valueNodes.map Predicate.ownValues =
      p.comparisons.map Comparison.operands := by
  rw [query, Select.valueNodes, List.map_append, OrderPath.bound_chainJoins, comparisons,
    List.map_append, ← boundBy_conditions]
  rfl

/-- **A plan binds what it compares with.** -/
theorem Plan.bindings_query (p : Plan) (supplies : Searcher.Supplies) :
    (p.query supplies).statement.bindings = p.comparisons.flatMap Comparison.operands := by
  have hcarry : (p.query supplies).statement.bindings =
      (p.query supplies).valueNodes.flatMap Predicate.ownValues := (p.query supplies).carry.holds
  rw [hcarry, List.flatMap_def, List.flatMap_def, bound_query]

/-! ### The comparisons of a plan are read off the catalog -/

namespace Searcher

variable {s : Searcher}

/-- The comparisons along a route. -/
theorem comparisons_of_route {catalog : Catalog} {policy : HiddenFieldPolicy} (leaf : Leaf)
    {names : List String} {e : Entity} {r : List Step × Bool}
    (h : Filter.route catalog policy leaf.field names e = .ok r) :
    (Clause.ofRoute leaf r).comparisons =
      catalog.filterComparisons leaf.field ⟨leaf.op, leaf.value⟩ names e := by
  induction names generalizing e r with
  | nil =>
    obtain rfl := Filter.route_nil h
    rw [Catalog.filterComparisons, Clause.ofRoute, Clause.comparisons]
    rcases e.isHidden leaf.field with _ | _ <;> rfl
  | cons name names ih =>
    rcases Filter.route_cons_cases h with
      ⟨r, hrel, hcut, rfl⟩ | ⟨st, r, -, hrel, hs, hent, hrest, rfl⟩
    · rw [Catalog.filterComparisons, hrel, Option.filter_some, if_neg (by simp [hcut])]
      rfl
    · rw [Catalog.filterComparisons, hrel, Option.filter_some, if_pos hs, Option.elim_some, hent,
        Option.elim_some, ← ih hrest]
      exact List.append_assoc _ _ _

/-- The comparisons of a clause are those of its criterion. -/
theorem comparisons_of_clause {e : Entity} {path : FieldPath} {op : Operator} {value : Value}
    {cl : Clause} (h : s.clause e path op value = .ok cl) :
    cl.comparisons =
      if path.isRelational then s.catalog.filterComparisons path.field ⟨op, value⟩ path.relations e
      else [⟨op, value⟩] := by
  unfold clause at h
  split at h
  · next hrel =>
    rw [if_pos hrel]
    obtain ⟨r, hr, rfl⟩ := map_eq_ok_iff.mp h
    exact comparisons_of_route ⟨path.field, op, value⟩ hr
  · next hplain =>
    rw [if_neg hplain, ← Except.ok.inj h]
    rfl

/-- The comparisons of clauses are those of their criteria, one after another. -/
theorem comparisons_of_clauses {item position : Nat} {e : Entity} {cs : List Criterion}
    {cls : List (Combinator × Clause)} (h : s.clauses item e position cs = .ok cls) :
    (cls.flatMap fun c => c.2.comparisons) = cs.flatMap (s.catalog.criterionComparisons e) := by
  induction cs generalizing position cls with
  | nil =>
    obtain rfl := Except.ok.inj h
    rfl
  | cons c cs ih =>
    obtain ⟨path, op, value, cl, cls', hparts, hcl, hcls, rfl⟩ := clauses_cons_cases h
    rw [List.flatMap_cons, List.flatMap_cons, ih hcls, comparisons_of_clause hcl,
      Catalog.criterionComparisons, hparts]
    rfl

/-- The comparisons of a chain are the constraints along its path. -/
theorem comparisons_of_chain {catalog : Catalog} {field : String} {names : List String}
    {e : Entity} {links : List OrderPath.Link}
    (h : OrderPath.chain catalog field names e = .ok links) :
    (links.flatMap fun l => l.1.comparisons) = catalog.orderComparisons names e := by
  induction names generalizing e links with
  | nil =>
    obtain rfl := Except.ok.inj h
    rfl
  | cons name names ih =>
    obtain ⟨l, links, rfl, hrel, hent, -, hrest⟩ := OrderPath.chain_cons_cases h
    rw [Catalog.orderComparisons, hrel, Option.elim_some, hent, Option.elim_some, ← ih hrest,
      List.flatMap_cons]

/-- The links of a plan compare with the constraints along its order. -/
theorem comparisons_of_links {index : Nat} {item : SearchItem} {order : Option OrderPath}
    {p : Plan} (h : s.plan index item order = .ok p) :
    (p.links.flatMap fun l => l.1.comparisons) =
      order.elim [] fun o => s.catalog.orderComparisons o.path.relations p.entity := by
  rcases order with _ | order
  · obtain ⟨-, -, horder⟩ := plan_cases h
    obtain horder : none = p.order := Except.ok.inj horder
    rw [Plan.links, ← horder]
    rfl
  · obtain ⟨ls, hls, hchain⟩ := chain_of_plan h
    rw [Plan.links, hls]
    exact comparisons_of_chain hchain

/-- **The comparisons of a plan are those of its item and its order.** -/
theorem comparisons_of_plan {index : Nat} {item : SearchItem} {order : Option OrderPath}
    {p : Plan} (h : s.plan index item order = .ok p) :
    p.comparisons = s.catalog.comparisons p.entity item order := by
  obtain ⟨-, hclauses, -⟩ := plan_cases h
  rw [Plan.comparisons, comparisons_of_links h, comparisons_of_clauses hclauses,
    Catalog.comparisons]

end Searcher

/-! ### Properties of comparisons -/

namespace Catalog

variable {catalog : Catalog} {e : Entity} {P : Comparison → Prop}

section Property

variable (hc : ∀ e, catalog.Has e → ∀ r ∈ e.relations, ∀ c ∈ r.comparisons, P c)
include hc

/-- What a relation compares with and what is compared behind it has a property that all constraints
have. -/
theorem forall_step (he : catalog.Has e) {r : Relation} (hr : r ∈ e.relations)
    {further : Entity → List Comparison}
    (hfurther : ∀ related, catalog.Has related → ∀ c ∈ further related, P c) :
    ∀ c ∈ r.comparisons ++ (catalog.entity? r.related).elim [] further, P c := by
  intro c hmem
  rcases List.mem_append.mp hmem with hmem | hmem
  · exact hc e he r hr c hmem
  · rcases hent : catalog.entity? r.related with _ | related
    · simp [hent] at hmem
    · rw [hent] at hmem
      exact hfurther related ⟨_, hent⟩ c hmem

theorem forall_filterComparisons (he : catalog.Has e) (field : String) {final : Comparison}
    (hfinal : P final) (names : List String) :
    ∀ c ∈ catalog.filterComparisons field final names e, P c := by
  induction names generalizing e with
  | nil =>
    intro c hmem
    rw [filterComparisons] at hmem
    split at hmem
    · simp at hmem
    · rwa [List.mem_singleton.mp hmem]
  | cons name names ih =>
    rw [filterComparisons]
    rcases hrel : (e.relation? name).filter Relation.isSearchable with _ | r
    · simp
    · obtain ⟨hfind, -⟩ := Option.filter_eq_some_iff.mp hrel
      exact forall_step hc he (List.mem_of_find?_eq_some hfind) fun related hrelated => ih hrelated

theorem forall_orderComparisons (he : catalog.Has e) (names : List String) :
    ∀ c ∈ catalog.orderComparisons names e, P c := by
  induction names generalizing e with
  | nil => simp [orderComparisons]
  | cons name names ih =>
    rw [orderComparisons]
    rcases hrel : e.relation? name with _ | r
    · simp
    · exact forall_step hc he (List.mem_of_find?_eq_some hrel) fun related hrelated => ih hrelated

/-- **The comparisons of a search have a property** that its criteria and the constraints of the
catalog have. -/
theorem forall_comparisons (he : catalog.Has e) {item : SearchItem}
    (hi : ∀ c ∈ item.criteriaList, ∀ path op value,
      Searcher.parts? c = some (path, op, value) → P ⟨op, value⟩) (order : Option OrderPath) :
    ∀ c ∈ catalog.comparisons e item order, P c := by
  intro c hmem
  rcases List.mem_append.mp hmem with hmem | hmem
  · rcases order with _ | order
    · simp at hmem
    · exact forall_orderComparisons hc he order.path.relations c hmem
  · obtain ⟨criterion, hcriterion, hmem⟩ := List.mem_flatMap.mp hmem
    rw [criterionComparisons] at hmem
    rcases hparts : Searcher.parts? criterion with _ | ⟨path, op, value⟩
    · simp [hparts] at hmem
    · have hfinal := hi criterion hcriterion path op value hparts
      simp only [hparts, Option.elim_some] at hmem
      split at hmem
      · exact forall_filterComparisons hc he path.field hfinal path.relations c hmem
      · rwa [List.mem_singleton.mp hmem]

end Property

/-- **A search fits** if its criteria do and the constraints of the catalog do. -/
theorem Fits.comparisons (hc : catalog.Fits) (he : catalog.Has e) {item : SearchItem}
    (hi : item.Fits) (order : Option OrderPath) :
    ∀ c ∈ catalog.comparisons e item order, c.Fits :=
  forall_comparisons hc he hi order

end Catalog

/-- **What a search binds.** The bindings of a search that compiles are what its comparisons compare
with, those of the order before those of the criteria of the last item. So they are scalars exactly
if every comparison fits; and they are if every criterion of the item and every constraint of the
catalog fits, which nothing else makes sure of. -/
theorem Searcher.bindings_of_compile {s : Searcher} {request : SearchRequest}
    {orderBy orderAs : Option String} {q : Select}
    (h : s.compileWith request orderBy orderAs = .ok q) :
    ∃ (item : SearchItem) (root : Entity) (order : Option OrderPath),
      request.items.getLast? = some item ∧
      s.catalog.resolve? (item.key?.getD "") = some root ∧
      OrderPath.ofParams orderBy orderAs = .ok order ∧
      q.statement.bindings =
        (s.catalog.comparisons root item order).flatMap Comparison.operands ∧
      ((∀ v ∈ q.statement.bindings, v.isArray = false) ↔
        ∀ c ∈ s.catalog.comparisons root item order, c.Fits) ∧
      (item.Fits → s.catalog.Fits → ∀ v ∈ q.statement.bindings, v.isArray = false) := by
  obtain ⟨order, horder, h⟩ := compile_of_compileWith h
  obtain ⟨index, item, p, filters, joins, hlast, hplan, rfl⟩ := written_of_compile h
  have hbindings := p.bindings_query ⟨.after .forExists filters, .after .forJoins joins⟩
  rw [comparisons_of_plan hplan] at hbindings
  have hscalars : (∀ v ∈ (p.query ⟨.after .forExists filters,
      .after .forJoins joins⟩).statement.bindings, v.isArray = false) ↔
        ∀ c ∈ s.catalog.comparisons p.entity item order, c.Fits := by
    simp only [hbindings, List.mem_flatMap, Comparison.fits_iff]
    exact ⟨fun hall c hc v hv => hall v ⟨c, hc, hv⟩, fun hall v ⟨c, hc, hv⟩ => hall c hc v hv⟩
  exact ⟨item, p.entity, order, hlast, resolve?_of_entityOf (plan_cases hplan).1, horder, hbindings,
    hscalars, fun hitem hcatalog => hscalars.mpr
      (hcatalog.comparisons (entity_of_plan hplan) hitem order)⟩

namespace Newsroom

/-- A user, of whose posts only those in one of two states are looked at. -/
def user : Entity :=
  (Entity.ofTable "User" "users").makeSearchable.addRelation
    ((Relation.hasMany "posts" "Post" "user_id" "id").withConstraint "state" .isIn
      (.array [.string "draft", .string "live"]))

/-- The configuration. -/
def configuration : Configuration := ⟨Dict.ofList [("user", "User")], [user, Blog.post], .drop⟩

/-- The searcher for that configuration. -/
def searcher : Searcher := ⟨configuration.uncheckedCatalog, configuration.policy⟩

/-- A search for users by the titles of their posts and by their numbers. -/
def search : SearchItem :=
  ⟨some "user", some [Blog.criterion "posts.title" "=" (.string "Hi"),
    Blog.criterion "id" "not in" (.array [.int 1, .int 2])]⟩

end Newsroom

/-- The theorem at a search that compares with members of lists: the members are bound, and all
that is compared fits. -/
theorem Searcher.bindings_of_compile_newsroom :
    ∃ q, Newsroom.searcher.compileWith ⟨[Newsroom.search]⟩ none none = .ok q ∧
      q.statement.bindings =
        [.string "draft", .string "live", .string "Hi", .int 1, .int 2] ∧
      ∀ c ∈ Newsroom.searcher.catalog.comparisons Newsroom.user Newsroom.search none, c.Fits := by
  obtain ⟨q, hq⟩ : ∃ q, Newsroom.searcher.compileWith ⟨[Newsroom.search]⟩ none none = .ok q :=
    ⟨_, rfl⟩
  obtain ⟨item, root, order, hitem, hroot, horder, hbindings, hscalars, -⟩ :=
    Searcher.bindings_of_compile hq
  obtain rfl : Newsroom.search = item := Option.some.inj hitem
  obtain rfl : Newsroom.user = root := Option.some.inj hroot
  obtain rfl := Except.ok.inj horder
  have hlist : q.statement.bindings =
      [.string "draft", .string "live", .string "Hi", .int 1, .int 2] := hbindings.trans rfl
  refine ⟨q, hq, hlist, hscalars.mp fun v hv => ?_⟩
  rw [hlist] at hv
  revert v
  simp [Value.isArray]

/-- **Lists are bound.** The configuration is accepted and both searches compile; one of them
compares with a list as it is, the other one has a list for a member of its set. -/
theorem Newsroom.binds_lists :
    Searcher.ofConfiguration configuration = .ok searcher ∧
      ∀ text ∈ ["[[\"user\",[[\"name\",\"=\",[\"Ann\",\"Bob\"]]]]]",
          "[[\"user\",[[\"name\",\"in\",[[\"Ann\",\"Bob\"],\"Cy\"]]]]]"],
        ∃ request q, SearchRequest.ofText text = .ok request ∧
          searcher.compileWith request none none = .ok q ∧
          ∃ v ∈ q.statement.bindings, v.isArray = true := by
  have heq : SearchRequest.ofText "[[\"user\",[[\"name\",\"=\",[\"Ann\",\"Bob\"]]]]]" =
      .ok ⟨[⟨some "user",
        some [Blog.criterion "name" "=" (.array [.string "Ann", .string "Bob"])]⟩]⟩ := by cbv
  have hin : SearchRequest.ofText "[[\"user\",[[\"name\",\"in\",[[\"Ann\",\"Bob\"],\"Cy\"]]]]]" =
      .ok ⟨[⟨some "user", some [Blog.criterion "name" "in"
        (.array [.array [.string "Ann", .string "Bob"], .string "Cy"])]⟩]⟩ := by cbv
  refine ⟨rfl, fun text htext => ?_⟩
  rcases List.mem_pair.mp htext with rfl | rfl
  · exact ⟨_, _, heq, rfl, _, List.mem_cons_self, rfl⟩
  · exact ⟨_, _, hin, rfl, _, List.mem_cons_self, rfl⟩

end DottedQuery
